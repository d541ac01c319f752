import Mathlib.Logic.Relation
import NetProbe.Proofs.Http.Line
import NetProbe.Proofs.Results
set_option autoImplicit false

/-! # Snapshots of bodies

However a peer frames a body, in chunks, by its length, by closing the stream or in frames of
HTTP/3, its snapshot is the same (`same_snapshot`). The loops over chunks and over frames are taken
apart into their passes (`readChunks_eq`, `readFrames_eq`), none of which leaves more than the limit
(`length_le_of_chunkPass`, `length_le_of_framePass`). -/

namespace NetProbe.Http

open Relation (ReflTransGen)

/-- The snapshot of a whole body. -/
def Snapshot.of (limit : Nat) (body : Bytes) : Snapshot :=
  ⟨body.take limit, limit < body.length⟩

theorem Snapshot.of_of_le {limit : Nat} {body : Bytes} (h : body.length ≤ limit) :
    Snapshot.of limit body = ⟨body, false⟩ := by
  rw [Snapshot.of, List.take_of_length_le h, decide_eq_false (Nat.not_lt.2 h)]

/-- Nothing behind the limit matters, once it is passed. -/
theorem Snapshot.of_append {limit : Nat} {body : Bytes} (h : limit < body.length) (more : Bytes) :
    Snapshot.of limit (body ++ more) = Snapshot.of limit body := by
  have hlonger : limit < (body ++ more).length := by
    rw [List.length_append]
    omega
  rw [Snapshot.of, Snapshot.of, List.take_append_of_le_length (Nat.le_of_lt h), decide_eq_true h,
    decide_eq_true hlonger]

theorem Snapshot.of_append_of_lt {limit : Nat} {out data : Bytes} (hout : out.length ≤ limit)
    (h : limit < (out ++ data).length) :
    Snapshot.of limit (out ++ data) = ⟨out ++ data.take (limit - out.length), true⟩ := by
  rw [Snapshot.of, List.take_append, List.take_of_length_le hout, decide_eq_true h]

theorem readExactly_append {count : Nat} {bs : Bytes} (h : count ≤ bs.length) (ending : StreamEnd)
    (rest : Bytes) :
    readExactly ending count (bs ++ rest) = .ok (bs.take count, bs.drop count ++ rest) := by
  have hle : count ≤ (bs ++ rest).length := by
    rw [List.length_append]
    omega
  rw [readExactly, if_pos hle, List.take_append_of_le_length h, List.drop_append_of_le_length h]

theorem length_of_readExactly {ending : StreamEnd} {count : Nat} {bytes data rest : Bytes}
    (h : readExactly ending count bytes = .ok (data, rest)) : data.length = count := by
  rw [readExactly] at h
  split at h
  · next hle =>
    cases h
    exact List.length_take_of_le hle
  · cases h

/-! ## Chunked bodies -/

/-- A chunk as a peer may send it. -/
structure Chunk where
  line : Line
  data : Bytes
  nonempty : data ≠ []
  announced : Announces line.text data.length

def Chunk.bytes (c : Chunk) : Bytes := c.line.bytes ++ c.data ++ Line.blank.bytes

/-- A chunked body as a peer may send it: chunks, the line of a last one without data, trailers, and
    a blank line. -/
structure ChunkedBody where
  chunks : List Chunk
  last : Line
  announced : Announces last.text 0
  trailers : List Line
  nonblank : ∀ t ∈ trailers, t.text ≠ ""

namespace ChunkedBody

def data (c : ChunkedBody) : Bytes := c.chunks.flatMap Chunk.data

/-- What follows the chunks. -/
def tail (c : ChunkedBody) : Bytes :=
  c.last.bytes ++ c.trailers.flatMap Line.bytes ++ Line.blank.bytes

def bytes (c : ChunkedBody) : Bytes := c.chunks.flatMap Chunk.bytes ++ c.tail

end ChunkedBody

/-- A chunk with nothing but its size in its line. -/
def Chunk.ofData (data : Bytes) (h : data ≠ [] ∧ data.length < 2 ^ 64) : Chunk where
  line := .ofSize data.length h.2
  data := data
  nonempty := h.1
  announced := Line.announces_ofSize h.2

/-- Every way to split a body has an encoding. -/
theorem exists_chunkedBody {parts : List Bytes} (h : ∀ d ∈ parts, d ≠ [] ∧ d.length < 2 ^ 64) :
    ∃ c : ChunkedBody, c.chunks.map Chunk.data = parts := by
  refine ⟨⟨parts.pmap Chunk.ofData h, .ofSize 0 (by decide), Line.announces_ofSize _, [], nofun⟩,
    ?_⟩
  rw [List.map_pmap]
  exact (List.pmap_eq_map h).trans (List.map_id parts)

theorem skipTrailers_eq (ending : StreamEnd) (bytes : Bytes) :
    skipTrailers ending bytes = (do
      let (line, rest) ← readLine ending bytes
      if line.isEmpty then return rest else skipTrailers ending rest) := by
  rw [skipTrailers]
  split <;> next h => rw [h]; rfl

/-- A pass of the loop over the chunks, from what was read and what follows it: these for the next
    pass, or the result. -/
def chunkPass (ending : StreamEnd) (limit : Nat) :
    Bytes × Bytes → Except ResponseFault ((Bytes × Bytes) ⊕ (Snapshot × Bytes))
  | (out, bytes) => do
    let (line, rest) ← readLine ending bytes
    let size ← chunkSizeOf line
    if size = 0 then
      let rest ← skipTrailers ending rest
      return .inr (⟨out, false⟩, rest)
    let (data, rest) ← readExactly ending (min size (limit - out.length)) rest
    if limit - out.length < size then return .inr (⟨out ++ data, true⟩, rest)
    let (_, rest) ← readLine ending rest
    return .inl (out ++ data, rest)

/-- The proof goes through both sides at once, which stop at the same faults. -/
theorem readChunks_eq (ending : StreamEnd) (limit : Nat) (out bytes : Bytes) :
    readChunks ending limit out bytes = chunkPass ending limit (out, bytes) >>=
      Sum.elim (fun s => readChunks ending limit s.1 s.2) .ok := by
  rw [readChunks, chunkPass]
  split
  · next h => rw [h]; rfl
  next line rest hline =>
  rw [hline]
  simp only [bind_assoc]
  change _ = chunkSizeOf line >>= _
  split
  · next h => rw [h]; rfl
  · next h =>
    rw [h]
    change _ = (skipTrailers ending rest >>= _) >>= _
    cases skipTrailers ending rest <;> rfl
  next size hpos hsize =>
  rw [hsize]
  change _ = (if size = 0 then _ else _) >>= _
  rw [if_neg hpos]
  dsimp only
  split
  · next h => rw [h]; rfl
  next data rest' hdata =>
  rw [hdata]
  change _ = (if limit - out.length < size then _ else _) >>= _
  split
  · rfl
  · change _ = (readLine ending rest' >>= _) >>= _
    split <;> next h => rw [h]; rfl

theorem skipTrailers_append {trailers : List Line} (h : ∀ t ∈ trailers, t.text ≠ "")
    (ending : StreamEnd) (rest : Bytes) :
    skipTrailers ending (trailers.flatMap Line.bytes ++ Line.blank.bytes ++ rest) = .ok rest := by
  induction trailers with
  | nil =>
    rw [List.flatMap_nil, List.nil_append, skipTrailers_eq, readLine_bytes]
    rfl
  | cons t trailers ih =>
    obtain ⟨ht, htrailers⟩ := List.forall_mem_cons.1 h
    have hempty : ¬ t.text.isEmpty = true := by rwa [String.isEmpty_iff]
    rw [List.flatMap_cons, List.append_assoc, List.append_assoc, skipTrailers_eq, readLine_bytes]
    change (if t.text.isEmpty = true then _ else _) = _
    rw [if_neg hempty, ← List.append_assoc]
    exact ih htrailers

/-- A chunk is added to what was read, unless it passes the limit. -/
theorem chunkPass_chunk (c : Chunk) (hsize : c.data.length < 2 ^ 64) {limit : Nat} {out : Bytes}
    (hout : out.length ≤ limit) (ending : StreamEnd) (rest : Bytes) :
    chunkPass ending limit (out, c.bytes ++ rest) =
      .ok (if (out ++ c.data).length ≤ limit then .inl (out ++ c.data, rest)
        else .inr (.of limit (out ++ c.data),
          c.data.drop (limit - out.length) ++ (Line.blank.bytes ++ rest))) := by
  have hpos : c.data.length ≠ 0 := mt List.length_eq_zero_iff.1 c.nonempty
  rw [chunkPass, Chunk.bytes, List.append_assoc, List.append_assoc, readLine_bytes]
  change (chunkSizeOf c.line.text >>= _) = _
  rw [chunkSizeOf_of_announces c.announced hsize]
  change (if c.data.length = 0 then _ else _) = _
  rw [if_neg hpos, readExactly_append (Nat.min_le_left _ _)]
  change (if limit - out.length < c.data.length then _ else _) = _
  rw [List.length_append]
  by_cases hroom : out.length + c.data.length ≤ limit
  · have hmin : min c.data.length (limit - out.length) = c.data.length := by omega
    rw [if_pos hroom, if_neg (by omega), hmin, List.drop_length, List.nil_append, readLine_bytes,
      List.take_length]
    rfl
  · have hmin : min c.data.length (limit - out.length) = limit - out.length := by omega
    have hlonger : limit < (out ++ c.data).length := by
      rw [List.length_append]
      omega
    rw [if_neg hroom, if_pos (by omega), hmin, Snapshot.of_append_of_lt hout hlonger]
    rfl

theorem chunkPass_tail (c : ChunkedBody) (ending : StreamEnd) (limit : Nat) (out rest : Bytes) :
    chunkPass ending limit (out, c.tail ++ rest) = .ok (.inr (⟨out, false⟩, rest)) := by
  have hlast : chunkSizeOf c.last.text = .ok 0 := chunkSizeOf_of_announces c.announced (by decide)
  rw [chunkPass, ChunkedBody.tail, List.append_assoc, List.append_assoc, readLine_bytes]
  change (chunkSizeOf c.last.text >>= _) = _
  rw [hlast, ← List.append_assoc]
  change (skipTrailers ending _ >>= _) = _
  rw [skipTrailers_append c.nonblank]
  rfl

/-- The induction is on the chunks; `out` stays below the limit as long as the loop goes on. -/
theorem readChunks_append {chunks : List Chunk} (hsize : ∀ c ∈ chunks, c.data.length < 2 ^ 64)
    {limit : Nat} {out : Bytes} (hout : out.length ≤ limit) (ending : StreamEnd) {tail rest : Bytes}
    (htail : ∀ out : Bytes, chunkPass ending limit (out, tail) = .ok (.inr (⟨out, false⟩, rest))) :
    (readChunks ending limit out (chunks.flatMap Chunk.bytes ++ tail)).map Prod.fst =
      .ok (.of limit (out ++ chunks.flatMap Chunk.data)) := by
  induction chunks generalizing out with
  | nil =>
    rw [List.flatMap_nil, List.flatMap_nil, List.nil_append, List.append_nil, readChunks_eq, htail,
      Snapshot.of_of_le hout]
    rfl
  | cons c chunks ih =>
    obtain ⟨hc, hchunks⟩ := List.forall_mem_cons.1 hsize
    rw [List.flatMap_cons, List.flatMap_cons, List.append_assoc, ← List.append_assoc out,
      readChunks_eq, chunkPass_chunk c hc hout]
    by_cases hroom : (out ++ c.data).length ≤ limit
    · rw [if_pos hroom]
      exact ih hchunks hroom
    · rw [if_neg hroom, Snapshot.of_append (Nat.lt_of_not_le hroom)]
      rfl

theorem readChunks_bytes (c : ChunkedBody) (hsize : ∀ d ∈ c.chunks, d.data.length < 2 ^ 64)
    (limit : Nat) (ending : StreamEnd) (rest : Bytes) :
    (readChunks ending limit [] (c.bytes ++ rest)).map Prod.fst = .ok (.of limit c.data) := by
  rw [ChunkedBody.bytes, List.append_assoc]
  exact readChunks_append hsize (Nat.zero_le _) ending
    (fun out => chunkPass_tail c ending limit out rest)

/-- A pass that is not the last one leaves no more than the limit. -/
theorem length_le_of_chunkPass {ending : StreamEnd} {limit : Nat} {s t : Bytes × Bytes}
    (h : chunkPass ending limit s = .ok (.inl t)) (hs : s.1.length ≤ limit) :
    t.1.length ≤ limit := by
  obtain ⟨out, bytes⟩ := s
  rw [chunkPass] at h
  obtain ⟨⟨line, rest⟩, -, h⟩ := bind_eq_ok_iff.1 h
  obtain ⟨size, -, h⟩ := bind_eq_ok_iff.1 h
  split at h
  · obtain ⟨_, -, h⟩ := bind_eq_ok_iff.1 h
    cases h
  obtain ⟨⟨data, rest'⟩, hdata, h⟩ := bind_eq_ok_iff.1 h
  dsimp only at h
  split at h
  · cases h
  obtain ⟨_, -, h⟩ := bind_eq_ok_iff.1 h
  cases h
  have hcount := length_of_readExactly hdata
  dsimp only at hs ⊢
  rw [List.length_append]
  omega

/-! ## Frames -/

/-- A pass of the loop over the frames, from what was read and the frames that follow it: these for
    the next pass, or the result. -/
def framePass (limit : Nat) (fault : Option String) :
    Bytes × List Bytes → Except String ((Bytes × List Bytes) ⊕ Snapshot)
  | (out, []) => fault.elim (.ok (.inr ⟨out, false⟩)) .error
  | (out, frame :: frames) =>
    if limit - out.length < frame.length then
      .ok (.inr ⟨out ++ frame.take (limit - out.length), true⟩)
    else .ok (.inl (out ++ frame, frames))

theorem readFrames_eq (limit : Nat) (fault : Option String) (out : Bytes) (frames : List Bytes) :
    readFrames limit fault out frames = framePass limit fault (out, frames) >>=
      Sum.elim (fun s => readFrames limit fault s.1 s.2) .ok := by
  cases frames with
  | nil => cases fault <;> rfl
  | cons frame frames =>
    rw [readFrames, framePass]
    split <;> rfl

theorem framePass_cons {limit : Nat} {out frame : Bytes} (hout : out.length ≤ limit)
    (fault : Option String) (frames : List Bytes) :
    framePass limit fault (out, frame :: frames) =
      .ok (if (out ++ frame).length ≤ limit then .inl (out ++ frame, frames)
        else .inr (.of limit (out ++ frame))) := by
  rw [framePass]
  by_cases hroom : (out ++ frame).length ≤ limit
  · rw [if_pos hroom, if_neg (by rw [List.length_append] at hroom; omega)]
  · rw [if_neg hroom, if_pos (by rw [List.length_append] at hroom; omega),
      Snapshot.of_append_of_lt hout (Nat.lt_of_not_le hroom)]

theorem readFrames_flatten (frames : List Bytes) {limit : Nat} {out : Bytes}
    (hout : out.length ≤ limit) :
    readFrames limit none out frames = .ok (.of limit (out ++ frames.flatten)) := by
  induction frames generalizing out with
  | nil => rw [readFrames, List.flatten_nil, List.append_nil, Snapshot.of_of_le hout]
  | cons frame frames ih =>
    rw [readFrames_eq, framePass_cons hout, List.flatten_cons, ← List.append_assoc]
    by_cases hroom : (out ++ frame).length ≤ limit
    · rw [if_pos hroom]
      exact ih hroom
    · rw [if_neg hroom, Snapshot.of_append (Nat.lt_of_not_le hroom)]
      rfl

theorem length_le_of_framePass {limit : Nat} {fault : Option String} {s t : Bytes × List Bytes}
    (h : framePass limit fault s = .ok (.inl t)) (hs : s.1.length ≤ limit) :
    t.1.length ≤ limit := by
  obtain ⟨out, frames⟩ := s
  cases frames with
  | nil => cases fault <;> cases h
  | cons frame frames =>
    rw [framePass_cons hs] at h
    split at h
    · next hroom =>
      cases h
      exact hroom
    · cases h

/-! ## Announced lengths and closed streams -/

theorem readLength_append {limit : Nat} {text : String} {body : Bytes}
    (htext : Spells 10 text.toList body.length) (hsize : body.length < 2 ^ 64) (ending : StreamEnd)
    (rest : Bytes) : readLength ending limit text (body ++ rest) = .ok (.of limit body) := by
  rw [readLength, number?_of_spells htext (Nat.le_of_lt_succ hsize)]
  dsimp only
  rw [readExactly_append (Nat.min_le_left _ _)]
  have htake : body.take (min body.length limit) = body.take limit := by
    rw [Nat.min_comm, List.take_eq_take_iff]
    omega
  simp only [Except.map, Snapshot.of, htake]

/-- The largest limit is the only one that has no successor. -/
theorem toNat_add_one {limit : UInt64} (h : limit ≠ 18446744073709551615) :
    (limit + 1).toNat = limit.toNat + 1 := by
  have hne : limit.toNat ≠ 18446744073709551615 := fun heq => h (UInt64.toNat_inj.1 heq)
  have hlt := limit.toNat_lt
  rw [UInt64.toNat_add]
  change (limit.toNat + 1) % 2 ^ 64 = _
  omega

theorem readUntilClose_closed {limit : UInt64} (h : limit ≠ 18446744073709551615) (body : Bytes) :
    readUntilClose .closed limit body = .ok (.of limit.toNat body) := by
  rw [readUntilClose, toNat_add_one h]
  by_cases hle : limit.toNat + 1 ≤ body.length
  · have hlength : (body.take (limit.toNat + 1)).length = limit.toNat + 1 :=
      List.length_take_of_le hle
    have hmin : min limit.toNat (limit.toNat + 1) = limit.toNat := by omega
    have hmore : decide (limit.toNat < limit.toNat + 1) = decide (limit.toNat < body.length) := by
      rw [decide_eq_true (Nat.lt_succ_self _), decide_eq_true (Nat.lt_of_succ_le hle)]
    simp only [if_pos hle, Except.map, Snapshot.of, hlength, List.take_take, hmin, hmore]
  · simp only [if_neg hle, Except.map, Snapshot.of]

/-! ## Passes of a loop -/

/-- What a loop comes to from a state by its passes, each of which gives the state for the next one
    or the result. -/
def LeadsTo {ε σ ρ : Type} (pass : σ → Except ε (σ ⊕ ρ)) : σ → σ → Prop :=
  ReflTransGen fun s t => pass s = .ok (.inl t)

theorem LeadsTo.induct {ε σ ρ : Type} {pass : σ → Except ε (σ ⊕ ρ)} {P : σ → Prop}
    (hpass : ∀ {s t}, pass s = .ok (.inl t) → P s → P t) {s t : σ} (h : LeadsTo pass s t)
    (hs : P s) : P t := by
  induction h with
  | refl => exact hs
  | tail _ hlast ih => exact hpass hlast ih

/-! ## One snapshot for all framings -/

/-- Whether the body comes in chunks, by the headers. -/
def IsChunked (headers : List (String × String)) : Prop :=
  ∃ coding, header? headers "transfer-encoding" = some coding ∧
    Text.holds (Text.toLowerAscii coding) "chunked" = true

theorem framingOf_eq {headers : List (String × String)} :
    (IsChunked headers → framingOf headers = .chunked) ∧
    (∀ text, ¬ IsChunked headers → header? headers "content-length" = some text →
      framingOf headers = .length text) ∧
    (¬ IsChunked headers → header? headers "content-length" = none →
      framingOf headers = .untilClose) := by
  have hany : (header? headers "transfer-encoding").any (fun v =>
      Text.holds (Text.toLowerAscii v) "chunked") = true ↔ IsChunked headers := by
    cases h : header? headers "transfer-encoding" <;> simp [IsChunked, h]
  refine ⟨fun hc => ?_, fun text hc htext => ?_, fun hc hnone => ?_⟩
  · rw [framingOf, if_pos (hany.2 hc)]
  · rw [framingOf, if_neg (mt hany.1 hc), htext]
  · rw [framingOf, if_neg (mt hany.1 hc), hnone]

/-- Whatever frames a body, its snapshot is the same: the bytes up to the limit, and whether there
    are more. Lengths and sizes of chunks are announced in sixty-four bits. A limit without a
    successor does not tell a body that lasts until the stream is closed from an empty one; for
    every other one the count of bytes to read is exact. No pass of a loop has read more than the
    limit, so the room that is left is never negative. -/
theorem same_snapshot (limit : UInt64) (body : Bytes) (headers : List (String × String)) :
    ((∃ text : String, Spells 10 text.toList body.length) ∧
      ∀ text ending rest, ¬ IsChunked headers → header? headers "content-length" = some text →
        Spells 10 text.toList body.length → body.length < 2 ^ 64 →
        readBody ending limit headers (body ++ rest) = .ok (.of limit.toNat body)) ∧
    (∀ parts : List Bytes, (∀ d ∈ parts, d ≠ [] ∧ d.length < 2 ^ 64) → parts.flatten = body →
      (∃ c : ChunkedBody, c.chunks.map Chunk.data = parts) ∧
      ∀ (c : ChunkedBody) ending rest, IsChunked headers → c.chunks.map Chunk.data = parts →
        readBody ending limit headers (c.bytes ++ rest) = .ok (.of limit.toNat body) ∧
        ∀ s, LeadsTo (chunkPass ending limit.toNat) ([], c.bytes ++ rest) s →
          s.1.length ≤ limit.toNat) ∧
    (¬ IsChunked headers → header? headers "content-length" = none →
      limit ≠ 18446744073709551615 →
      readBody .closed limit headers body = .ok (.of limit.toNat body) ∧
      (limit + 1).toNat = limit.toNat + 1) ∧
    (∀ parts : List Bytes, parts.flatten = body →
      readFrames limit.toNat none [] parts = .ok (.of limit.toNat body) ∧
      ∀ s, LeadsTo (framePass limit.toNat none) ([], parts) s → s.1.length ≤ limit.toNat) := by
  refine ⟨⟨⟨String.ofList (Nat.toDigits 10 body.length), ?_⟩, ?_⟩,
    fun parts hparts hbody => ⟨exists_chunkedBody hparts, ?_⟩, fun hc hnone hlimit => ?_,
    fun parts hbody => ?_⟩
  · rw [String.toList_ofList]
    exact spells_decimal body.length
  · intro text ending rest hc htext hspells hsize
    rw [readBody, framingOf_eq.2.1 text hc htext]
    exact readLength_append hspells hsize ending rest
  · intro c ending rest hc hdata
    subst hdata
    have hdata : c.data = body := by
      rw [ChunkedBody.data, List.flatMap_def, hbody]
    have hsize : ∀ d ∈ c.chunks, d.data.length < 2 ^ 64 := fun d hd =>
      (hparts d.data (List.mem_map_of_mem hd)).2
    refine ⟨?_, fun s hs => hs.induct length_le_of_chunkPass (Nat.zero_le _)⟩
    rw [readBody, framingOf_eq.1 hc, ← hdata]
    exact readChunks_bytes c hsize limit.toNat ending rest
  · rw [readBody, framingOf_eq.2.2 hc hnone]
    exact ⟨readUntilClose_closed hlimit body, toNat_add_one hlimit⟩
  · subst hbody
    exact ⟨readFrames_flatten parts (Nat.zero_le _),
      fun s hs => hs.induct length_le_of_framePass (Nat.zero_le _)⟩

theorem same_snapshot_of_hello :
    (¬ IsChunked [("Content-Length", "5")] ∧
      header? [("Content-Length", "5")] "content-length" = some "5" ∧ Spells 10 "5".toList 5 ∧
      readBody .closed 4 [("Content-Length", "5")] [104, 101, 108, 108, 111] =
        .ok ⟨[104, 101, 108, 108], true⟩) ∧
    (IsChunked [("Transfer-Encoding", "chunked")] ∧
      ∃ c : ChunkedBody, c.chunks.map Chunk.data = [[104, 101], [108, 108, 111]] ∧
        readBody .closed 4 [("Transfer-Encoding", "chunked")] (c.bytes ++ [72]) =
          .ok ⟨[104, 101, 108, 108], true⟩) ∧
    (¬ IsChunked [] ∧ header? [] "content-length" = none ∧
      readBody .closed 4 [] [104, 101, 108, 108, 111] = .ok ⟨[104, 101, 108, 108], true⟩) ∧
    readFrames 4 none [] [[104, 101], [108, 108, 111]] = .ok ⟨[104, 101, 108, 108], true⟩ := by
  let hello : Bytes := [104, 101, 108, 108, 111]
  have hlength : ¬ IsChunked [("Content-Length", "5")] := nofun
  have hchunked : IsChunked [("Transfer-Encoding", "chunked")] := ⟨"chunked", rfl, rfl⟩
  have hclosed : ¬ IsChunked [] := nofun
  have hspells : Spells 10 "5".toList 5 := .digit (by decide)
  have hparts : ∀ d ∈ ([[104, 101], [108, 108, 111]] : List Bytes), d ≠ [] ∧ d.length < 2 ^ 64 := by
    decide
  refine ⟨⟨hlength, rfl, hspells, ?_⟩, ⟨hchunked, ?_⟩, ⟨hclosed, rfl, ?_⟩, ?_⟩
  · exact (same_snapshot 4 hello _).1.2 "5" .closed [] hlength rfl hspells (by decide)
  · obtain ⟨⟨c, hc⟩, hread⟩ := (same_snapshot 4 hello _).2.1 _ hparts rfl
    exact ⟨c, hc, (hread c .closed [72] hchunked hc).1⟩
  · exact ((same_snapshot 4 hello _).2.2.1 hclosed rfl (by decide)).1
  · exact ((same_snapshot 4 hello []).2.2.2 _ rfl).1

/-- The last limit, of which the successor is zero: nothing is read of a body that lasts until the
    stream is closed. -/
theorem untilClose_at_largest_limit :
    framingOf [] = .untilClose ∧
    readBody .closed 18446744073709551615 [] [104, 105] = .ok ⟨[], false⟩ ∧
    Snapshot.of (18446744073709551615 : UInt64).toNat [104, 105] = ⟨[104, 105], false⟩ :=
  ⟨rfl, rfl, rfl⟩

end NetProbe.Http
