import NetProbe.Measurement.Transaction
import NetProbe.Proofs.Http.Heads
import NetProbe.Proofs.Http.Snapshot
set_option autoImplicit false

/-! # Responses that are cut off

A response whose end can be told is never taken for complete before its last byte: of every proper
part of it, wherever it is cut, a transaction makes the failure that the stream ended, and of the
whole it makes the status, the headers and the body (`received_cut`). -/

namespace NetProbe.Http

/-! ## Bodies -/

theorem reads_exactly (data : Bytes) :
    Reads (fun ending bytes => readExactly ending data.length bytes) data
      fun rest => (data, rest) where
  whole ending rest := by
    rw [readExactly_append (Nat.le_refl _), List.take_length, List.drop_length, List.nil_append]
  cut ending p hp hne := by
    have hlt : p.length < data.length :=
      Nat.lt_of_not_le fun hle => hne (hp.eq_of_length_le hle)
    rw [readExactly, if_neg (Nat.not_le.2 hlt)]

/-- Whether trailers go on behind a line. -/
def trailersFrom (ending : StreamEnd) (r : String × Bytes) : Except ResponseFault Bytes :=
  if r.1.isEmpty then .ok r.2 else skipTrailers ending r.2

theorem reads_trailers {trailers : List Line} (h : ∀ t ∈ trailers, t.text ≠ "") :
    Reads skipTrailers (trailers.flatMap Line.bytes ++ Line.blank.bytes) fun rest => rest := by
  have heq : ∀ ending bytes, skipTrailers ending bytes =
      readLine ending bytes >>= trailersFrom ending := skipTrailers_eq
  induction trailers with
  | nil =>
    have hend : Reads (fun ending bytes => trailersFrom ending (Line.blank.text, bytes)) []
        fun rest => rest := .nothing _
    have hread := (reads_crlf .blank).bind hend
    rw [List.append_nil] at hread
    exact hread.of_eq heq
  | cons t trailers ih =>
    obtain ⟨ht, htrailers⟩ := List.forall_mem_cons.1 h
    have hmore : Reads (fun ending bytes => trailersFrom ending (t.text, bytes))
        (trailers.flatMap Line.bytes ++ Line.blank.bytes) fun rest => rest :=
      (ih htrailers).of_eq fun ending bytes => if_neg (by rwa [String.isEmpty_iff])
    rw [List.flatMap_cons, List.append_assoc]
    exact ((reads_crlf t).bind hmore).of_eq heq

/-- A pass of the loop over the chunks from the line with the size on. -/
def chunkFrom (ending : StreamEnd) (limit : Nat) (out : Bytes) (r : String × Bytes) :
    Except ResponseFault ((Bytes × Bytes) ⊕ (Snapshot × Bytes)) := do
  let size ← chunkSizeOf r.1
  if size = 0 then
    let rest ← skipTrailers ending r.2
    return .inr (⟨out, false⟩, rest)
  let (data, rest) ← readExactly ending (min size (limit - out.length)) r.2
  if limit - out.length < size then return .inr (⟨out ++ data, true⟩, rest)
  let (_, rest) ← readLine ending rest
  return .inl (out ++ data, rest)

theorem reads_chunk (c : Chunk) {limit : Nat} {out : Bytes}
    (hroom : (out ++ c.data).length ≤ limit) (hlimit : limit < 2 ^ 64) :
    Reads (fun ending bytes => chunkPass ending limit (out, bytes)) c.bytes
      fun rest => .inl (out ++ c.data, rest) := by
  rw [List.length_append] at hroom
  have hpos : c.data.length ≠ 0 := mt List.length_eq_zero_iff.1 c.nonempty
  -- The chunk fits into what the limit leaves, so it is read whole.
  have hmin : min c.data.length (limit - out.length) = c.data.length := by omega
  have hsize : chunkSizeOf c.line.text = .ok c.data.length :=
    chunkSizeOf_of_announces c.announced (by omega)
  have hend := (reads_crlf .blank).map fun r =>
    (.inl (out ++ c.data, r.2) : (Bytes × Bytes) ⊕ (Snapshot × Bytes))
  have hfrom : Reads (fun ending bytes => chunkFrom ending limit out (c.line.text, bytes))
      (c.data ++ Line.blank.bytes) fun rest => .inl (out ++ c.data, rest) := by
    refine ((reads_exactly c.data).bind (g := fun ending r =>
      (readLine ending r.2).map fun r' => .inl (out ++ r.1, r'.2)) hend).of_eq ?_
    intro ending bytes
    rw [chunkFrom, hsize, ok_bind, if_neg hpos, hmin]
    cases readExactly ending c.data.length bytes with
    | error e => rfl
    | ok r =>
      rw [ok_bind, ok_bind]
      dsimp only
      rw [if_neg (by omega)]
      cases readLine ending r.2 <;> rfl
  rw [Chunk.bytes, List.append_assoc]
  -- A pass begins with the line, by definition.
  exact (reads_crlf c.line).bind hfrom

theorem reads_tail (c : ChunkedBody) (limit : Nat) (out : Bytes) :
    Reads (fun ending bytes => chunkPass ending limit (out, bytes)) c.tail
      fun rest => .inr (⟨out, false⟩, rest) := by
  have hsize : chunkSizeOf c.last.text = .ok 0 := chunkSizeOf_of_announces c.announced (by decide)
  have hfrom : Reads (fun ending bytes => chunkFrom ending limit out (c.last.text, bytes))
      (c.trailers.flatMap Line.bytes ++ Line.blank.bytes)
      fun rest => .inr (⟨out, false⟩, rest) := by
    refine ((reads_trailers c.nonblank).map fun rest =>
      (.inr (⟨out, false⟩, rest) : (Bytes × Bytes) ⊕ (Snapshot × Bytes))).of_eq ?_
    intro ending bytes
    rw [chunkFrom, hsize, ok_bind, if_pos rfl]
    cases skipTrailers ending bytes <;> rfl
  rw [ChunkedBody.tail, List.append_assoc]
  exact (reads_crlf c.last).bind hfrom

/-- What a pass is followed by: the next one, or nothing. -/
def nextPass (ending : StreamEnd) (limit : Nat) :
    (Bytes × Bytes) ⊕ (Snapshot × Bytes) → Except ResponseFault (Snapshot × Bytes) :=
  Sum.elim (fun s => readChunks ending limit s.1 s.2) .ok

/-- The induction is on the chunks; what was read before them is generalized. -/
theorem reads_chunks (c : ChunkedBody) {chunks : List Chunk} {limit : Nat} {out : Bytes}
    (hroom : (out ++ chunks.flatMap Chunk.data).length ≤ limit) (hlimit : limit < 2 ^ 64) :
    Reads (fun ending bytes => readChunks ending limit out bytes)
      (chunks.flatMap Chunk.bytes ++ c.tail)
      fun rest => (⟨out ++ chunks.flatMap Chunk.data, false⟩, rest) := by
  have heq : ∀ out ending bytes, readChunks ending limit out bytes =
      chunkPass ending limit (out, bytes) >>= nextPass ending limit :=
    fun out ending bytes => readChunks_eq ending limit out bytes
  induction chunks generalizing out with
  | nil =>
    have hend : Reads (fun ending bytes => nextPass ending limit (.inr (⟨out, false⟩, bytes))) []
        fun rest => (⟨out, false⟩, rest) := .nothing _
    have hread := (reads_tail c limit out).bind hend
    rw [List.append_nil] at hread
    rw [List.flatMap_nil, List.flatMap_nil, List.nil_append, List.append_nil]
    exact hread.of_eq (heq out)
  | cons d chunks ih =>
    rw [List.flatMap_cons, ← List.append_assoc] at hroom
    have hfirst : (out ++ d.data).length ≤ limit := by
      rw [List.length_append] at hroom
      omega
    have hnext : Reads (fun ending bytes => nextPass ending limit (.inl (out ++ d.data, bytes)))
        (chunks.flatMap Chunk.bytes ++ c.tail)
        fun rest => (⟨out ++ d.data ++ chunks.flatMap Chunk.data, false⟩, rest) := ih hroom
    rw [List.flatMap_cons, List.flatMap_cons, List.append_assoc, ← List.append_assoc out]
    exact ((reads_chunk d hfirst hlimit).bind hnext).of_eq (heq out)

/-! ## Responses -/

/-- The body of a response whose end can be told, as a peer may write it. -/
inductive WireBody where
  | none
  | length (data : Bytes)
  | chunked (c : ChunkedBody)

namespace WireBody

def bytes : WireBody → Bytes
  | none => []
  | length data => data
  | chunked c => c.bytes

def data : WireBody → Bytes
  | none => []
  | length data => data
  | chunked c => c.data

end WireBody

/-- A response as a peer may write it: interim heads, the final one, and a body. -/
structure WireResponse where
  interims : List WireHead
  final : WireHead
  body : WireBody
  interim : ∀ h ∈ interims, h.start.status < 200 ∧ h.start.status ≠ 101
  isFinal : final.start.status = 101 ∨ 200 ≤ final.start.status

namespace WireResponse

def bytes (r : WireResponse) : Bytes :=
  r.interims.flatMap WireHead.bytes ++ r.final.bytes ++ r.body.bytes

/-- Whether the body is the one that the final head announces in answer to a request with this
    method: none, where there is never one; chunks, if the headers say so; else as many bytes as
    they say. -/
def Announced (method : String) (r : WireResponse) : Prop :=
  let bodiless := method = "HEAD" ∨ r.final.start.status = 204 ∨ r.final.start.status = 304
  match r.body with
  | .none => bodiless
  | .length data => ¬ bodiless ∧ ¬ IsChunked r.final.head.headers ∧
      ∃ text, header? r.final.head.headers "content-length" = some text ∧
        Spells 10 text.toList data.length
  | .chunked _ => ¬ bodiless ∧ IsChunked r.final.head.headers

/-- What there is to read in it. -/
def parts (r : WireResponse) : ResponseParts where
  status := r.final.start.status
  headers := r.final.headers.map HeaderLine.header
  snapshot := ⟨r.body.data, false⟩

end WireResponse

theorem hasNoBody_iff {method : String} {status : Nat} :
    hasNoBody method status = true ↔ method = "HEAD" ∨ status = 204 ∨ status = 304 := by
  simp [hasNoBody, or_assoc]

/-- The response from its body on. -/
def bodyFrom (method : String) (limit : UInt64) (ending : StreamEnd) (r : Head × Bytes) :
    Except ResponseFault ResponseParts :=
  (if hasNoBody method r.1.status then .ok ⟨[], false⟩
    else readBody ending limit r.1.headers r.2).map fun s =>
      { status := r.1.status, headers := r.1.headers, snapshot := s }

theorem readResponse_eq (method : String) (limit : UInt64) (ending : StreamEnd) (bytes : Bytes) :
    readResponse method limit ⟨bytes, ending⟩ =
      readHead ending bytes >>= bodyFrom method limit ending := by
  rw [readResponse]
  cases readHead ending bytes <;> rfl

/-- One case for each kind of body. -/
theorem reads_body {method : String} {limit : UInt64} {r : WireResponse}
    (hannounced : r.Announced method) (hlimit : r.body.data.length ≤ limit.toNat) :
    Reads (fun ending bytes => bodyFrom method limit ending (r.final.head, bytes)) r.body.bytes
      fun _ => r.parts := by
  have hmost : limit.toNat < 2 ^ 64 := limit.toNat_lt
  unfold WireResponse.Announced at hannounced
  unfold bodyFrom WireResponse.parts
  cases hbody : r.body with
  | none =>
    rw [hbody] at hannounced
    have hnone : hasNoBody method r.final.head.status = true := hasNoBody_iff.2 hannounced
    exact (Reads.nothing _).of_eq fun ending bytes => by rw [if_pos hnone]; rfl
  | length data =>
    rw [hbody] at hannounced hlimit
    obtain ⟨hsome, hchunks, text, htext, hspells⟩ := hannounced
    have hnone : ¬ hasNoBody method r.final.head.status = true := mt hasNoBody_iff.1 hsome
    have hmin : min data.length limit.toNat = data.length := Nat.min_eq_left hlimit
    have hwhole : decide (limit.toNat < data.length) = false :=
      decide_eq_false (Nat.not_lt.2 hlimit)
    have hlength : Reads (fun ending bytes => readBody ending limit r.final.head.headers bytes) data
        fun _ => ⟨data, false⟩ := by
      refine ((reads_exactly data).map fun r => (⟨r.1, false⟩ : Snapshot)).of_eq ?_
      intro ending bytes
      rw [readBody, framingOf_eq.2.1 text hchunks htext]
      dsimp only
      rw [readLength, number?_of_spells hspells (by
        have : data.length ≤ limit.toNat := hlimit
        omega)]
      dsimp only
      rw [hmin, hwhole]
    refine (hlength.map _).of_eq fun ending bytes => ?_
    rw [if_neg hnone]
    rfl
  | chunked c =>
    rw [hbody] at hannounced hlimit
    obtain ⟨hsome, hchunks⟩ := hannounced
    have hnone : ¬ hasNoBody method r.final.head.status = true := mt hasNoBody_iff.1 hsome
    have hread : Reads (fun ending bytes => readBody ending limit r.final.head.headers bytes)
        c.bytes fun _ => ⟨c.data, false⟩ := by
      refine ((@reads_chunks c c.chunks limit.toNat [] hlimit hmost).map Prod.fst).of_eq ?_
      intro ending bytes
      rw [readBody, framingOf_eq.1 hchunks]
    refine (hread.map _).of_eq fun ending bytes => ?_
    rw [if_neg hnone]
    rfl

theorem WireResponse.reads_final (r : WireResponse) :
    Reads readHead (r.interims.flatMap WireHead.bytes ++ r.final.bytes)
      fun rest => (r.final.head, rest) :=
  reads_heads reads_anyHead (fun h hh => isInterim_iff.2 ⟨h.start.range.1, r.interim h hh⟩)
    (isInterim_eq_false r.isFinal)

theorem reads_response {method : String} {limit : UInt64} {r : WireResponse}
    (hannounced : r.Announced method) (hlimit : r.body.data.length ≤ limit.toNat) :
    Reads (fun ending bytes => readResponse method limit ⟨bytes, ending⟩) r.bytes
      fun _ => r.parts :=
  (r.reads_final.bind (reads_body hannounced hlimit)).of_eq fun ending bytes =>
    readResponse_eq method limit ending bytes

/-- A response that is cut off is a failure, wherever it is cut: of every proper part of it, after
    which the peer closes the stream, a transaction makes that the stream ended. Of the whole, which
    may be followed by anything, it makes the status, all headers and the whole body. -/
theorem received_cut (request : Request) (limit : UInt64) (r : WireResponse)
    (hannounced : r.Announced request.method) (hlimit : r.body.data.length ≤ limit.toNat) :
    (∀ p, p <+: r.bytes → p ≠ r.bytes →
      HttpTransaction.received request limit (.ok (.ok ⟨p, .closed⟩)) = .error "eof_error") ∧
    ∀ rest ending, HttpTransaction.received request limit (.ok (.ok ⟨r.bytes ++ rest, ending⟩)) =
      .ok {
        status := r.final.start.status
        headers := r.final.headers.map fun h => (h.name, h.value)
        snapshot := ⟨r.body.data, false⟩ } := by
  have hreads := reads_response hannounced hlimit
  constructor
  · intro p hp hne
    have hcut := hreads.cut .closed p hp hne
    simp only [HttpTransaction.received, unlessInterrupted]
    rw [hcut]
    rfl
  · intro rest ending
    have hwhole := hreads.whole ending rest
    simp only [HttpTransaction.received, unlessInterrupted]
    rw [hwhole]
    rfl

/-- Whether a text is far from too long and has no break in it. -/
def isShortLine (text : String) : Bool :=
  decide (text.toList.length ≤ 80) && text.toList.all fun c => c != '\n' && c != '\r'

theorem breaks_of_isShortLine {text : String} (h : isShortLine text = true) :
    '\n' ∉ text.toList ∧ '\r' ∉ text.toList := by
  rw [isShortLine, Bool.and_eq_true, List.all_eq_true] at h
  exact ⟨fun hmem => absurd (h.2 _ hmem) (by decide), fun hmem => absurd (h.2 _ hmem) (by decide)⟩

theorem short_of_isShortLine {text : String} (h : isShortLine text = true) :
    (Text.toBytes text).length + 2 ≤ maxLine := by
  rw [isShortLine, Bool.and_eq_true, decide_eq_true_eq] at h
  have hbytes := Text.length_toBytes_le text
  unfold maxLine
  omega

/-- A line that stands for itself. -/
def Line.ofText (text : String) (h : isShortLine text = true) : Line where
  text := text
  unbroken := breaks_of_isShortLine h
  short := short_of_isShortLine h

/-- An interim head, a final one, and a body of one chunk. -/
def WireResponse.greeting : WireResponse where
  interims := [{
    start := {
      line := (Line.ofText "HTTP/1.1 100 Continue" (by decide)).ended
      version := "HTTP/1.1".toList
      code := "100".toList
      reason := " Continue".toList
      status := 100
      spelled := rfl
      isHttp := by decide
      unspaced := by decide
      isCode := .more (.more (.digit (d := 1) rfl) (d := 0) rfl) (d := 0) rfl
      range := by decide
      separate := .inr rfl }
    headers := []
    last := Line.blank.ended
    few := by decide
    blank := rfl }]
  final := {
    start := {
      line := (Line.ofText "HTTP/1.1 200" (by decide)).ended
      version := "HTTP/1.1".toList
      code := "200".toList
      reason := []
      status := 200
      spelled := rfl
      isHttp := by decide
      unspaced := by decide
      isCode := .more (.more (.digit (d := 2) rfl) (d := 0) rfl) (d := 0) rfl
      range := by decide
      separate := .inl rfl }
    headers := [{
      line := (Line.ofText "Transfer-Encoding: Chunked" (by decide)).ended
      name := "Transfer-Encoding"
      value := "Chunked"
      spelled := ⟨[], [], [' '], [], by simp [Text.isBlank], rfl⟩
      uncoloned := by decide
      trimmedName := trimmed_of_all (by decide)
      trimmedValue := trimmed_of_all (by decide) }]
    last := Line.blank.ended
    few := by decide
    blank := rfl }
  body := .chunked {
    chunks := [.ofData [104, 195, 169] (by decide)]
    last := .ofSize 0 (by decide)
    announced := Line.announces_ofSize _
    trailers := []
    nonblank := nofun }
  interim := by decide
  isFinal := by decide

/-- Without its last byte, the line feed of the empty line behind the last chunk, and whole. -/
theorem received_cut_greeting :
    let request : Request := ⟨"GET", { scheme := .https, host := .name "example.com" }, []⟩
    let bytes := WireResponse.greeting.bytes
    WireResponse.greeting.Announced request.method ∧
      WireResponse.greeting.body.data.length ≤ UInt64.toNat 3 ∧
      HttpTransaction.received request 3 (.ok (.ok ⟨bytes.dropLast, .closed⟩)) =
        .error "eof_error" ∧
      HttpTransaction.received request 3 (.ok (.ok ⟨bytes ++ [], .closed⟩)) = .ok {
        status := 200
        headers := [("Transfer-Encoding", "Chunked")]
        snapshot := ⟨[104, 195, 169], false⟩ } := by
  intro request bytes
  have hannounced : WireResponse.greeting.Announced request.method :=
    ⟨by decide, "Chunked", by decide, by decide⟩
  have hlimit : WireResponse.greeting.body.data.length ≤ UInt64.toNat 3 := by decide
  obtain ⟨hcut, hwhole⟩ := received_cut request 3 .greeting hannounced hlimit
  have hshorter : bytes.dropLast ≠ bytes := by
    intro heq
    have hlength := congrArg List.length heq
    rw [List.length_dropLast] at hlength
    have hpos : 0 < bytes.length := by
      simp only [bytes, WireResponse.bytes, WireHead.bytes, EndedLine.bytes, List.length_append,
        List.length_singleton]
      omega
    omega
  exact ⟨hannounced, hlimit, hcut _ (List.dropLast_prefix bytes) hshorter, hwhole [] .closed⟩

end NetProbe.Http
