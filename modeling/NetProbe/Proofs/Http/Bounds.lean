import NetProbe.Proofs.Http.Truncation
set_option autoImplicit false

/-! # What a hostile peer can make of a response

Whatever bytes arrive, reading them as a response comes to an end, and what it gives is bounded. The
reader is taken apart into passes that read one line each, or a chunk with its line (`readingPass`).
Each pass but the last takes bytes off the stream and keeps what was read in bounds
(`progress_of_readingPass`), so there is at most one pass more than there are bytes, and the result
is in bounds too (`readResponse_bounded`). -/

namespace NetProbe.Http

/-! ## Loops -/

/-- That a loop comes to a result from a state in so many passes. -/
inductive Finishes {ε σ ρ : Type} (pass : σ → Except ε (σ ⊕ ρ)) : Nat → σ → Except ε ρ → Prop
  | fault {s : σ} {e : ε} : pass s = .error e → Finishes pass 1 s (.error e)
  | result {s : σ} {r : ρ} : pass s = .ok (.inr r) → Finishes pass 1 s (.ok r)
  | next {s t : σ} {n : Nat} {r : Except ε ρ} :
      pass s = .ok (.inl t) → Finishes pass n t r → Finishes pass (n + 1) s r

/-- A function that each pass agrees with is what its loop comes to, if every pass keeps `P` and
    leaves less to do. -/
theorem exists_finishes {ε σ ρ : Type} {pass : σ → Except ε (σ ⊕ ρ)} {f : σ → Except ε ρ}
    (hf : ∀ s, f s = pass s >>= Sum.elim f .ok) {P : σ → Prop} (left : σ → Nat)
    (hpass : ∀ {s t}, pass s = .ok (.inl t) → P s → P t ∧ left t < left s) {s : σ} (hs : P s) :
    ∃ n ≤ left s + 1, Finishes pass n s (f s) := by
  induction hn : left s using Nat.strongRecOn generalizing s with
  | ind n ih =>
    rw [hf]
    cases hstep : pass s with
    | error e => exact ⟨1, Nat.le_add_left _ _, .fault hstep⟩
    | ok o =>
      rw [ok_bind]
      cases o with
      | inr r => exact ⟨1, Nat.le_add_left _ _, .result hstep⟩
      | inl t =>
        obtain ⟨ht, hlt⟩ := hpass hstep hs
        obtain ⟨m, hm, hfinishes⟩ := ih (left t) (hn ▸ hlt) ht rfl
        exact ⟨m + 1, by omega, .next hstep hfinishes⟩

/-- What each pass keeps holds of the result. -/
theorem Finishes.induct {ε σ ρ : Type} {pass : σ → Except ε (σ ⊕ ρ)} {P : σ → Prop} {Q : ρ → Prop}
    (hnext : ∀ {s t}, pass s = .ok (.inl t) → P s → P t)
    (hresult : ∀ {s r}, pass s = .ok (.inr r) → P s → Q r) {n : Nat} {s : σ} {r : ρ}
    (h : Finishes pass n s (.ok r)) (hs : P s) : Q r := by
  generalize hout : (Except.ok r : Except ε ρ) = out at h
  induction h with
  | fault _ => cases hout
  | result hpass =>
    cases hout
    exact hresult hpass hs
  | next hpass _ ih => exact ih (hnext hpass hs) hout

/-! ## The passes of a reader -/

/-- Where the reader of a response is. -/
inductive Stage where
  /-- At the first line of a head. -/
  | start
  /-- Behind some headers of a head with this status. -/
  | headers (status : Nat) (before : List (String × String))
  /-- At the line of a chunk, behind chunks with the bytes `out`. -/
  | chunks (head : Head) (out : Bytes)
  /-- Among the trailers, behind chunks with the bytes `out`. -/
  | trailers (head : Head) (out : Bytes)

def Head.parts (h : Head) (s : Snapshot) : ResponseParts where
  status := h.status
  headers := h.headers
  snapshot := s

section

variable (method : String) (limit : UInt64) (ending : StreamEnd)

/-- What comes behind a head: another head, chunks, or the end. -/
def behindHead (head : Head) (bytes : Bytes) :
    Except ResponseFault ((Stage × Bytes) ⊕ ResponseParts) :=
  if isInterim head.status then .ok (.inl (.start, bytes))
  else if hasNoBody method head.status then .ok (.inr (head.parts ⟨[], false⟩))
  else match framingOf head.headers with
    | .chunked => .ok (.inl (.chunks head [], bytes))
    | .length text => (readLength ending limit.toNat text bytes).map fun s => .inr (head.parts s)
    | .untilClose => (readUntilClose ending limit bytes).map fun s => .inr (head.parts s)

/-- A pass of the reader: from a stage and what is left of the stream to the next ones, or to the
    result. -/
def readingPass : Stage × Bytes → Except ResponseFault ((Stage × Bytes) ⊕ ResponseParts)
  | (.start, bytes) => do
    let (line, rest) ← readLine ending bytes
    let status ← statusOf line
    return .inl (.headers status [], rest)
  | (.headers status before, bytes) => do
    let (line, rest) ← readLine ending bytes
    if line.isEmpty then behindHead method limit ending { status, headers := before } rest
    else if maxHeaders ≤ before.length then .error .manyHeaders
    else
      let header ← headerOf line
      return .inl (.headers status (before ++ [header]), rest)
  | (.chunks head out, bytes) => do
    let (line, rest) ← readLine ending bytes
    let size ← chunkSizeOf line
    if size = 0 then return .inl (.trailers head out, rest)
    let (data, rest) ← readExactly ending (min size (limit.toNat - out.length)) rest
    if limit.toNat - out.length < size then return .inr (head.parts ⟨out ++ data, true⟩)
    let (_, rest) ← readLine ending rest
    return .inl (.chunks head (out ++ data), rest)
  | (.trailers head out, bytes) => do
    let (line, rest) ← readLine ending bytes
    return if line.isEmpty then .inr (head.parts ⟨out, false⟩) else .inl (.trailers head out, rest)

/-- The response from a stage on. -/
def responseFrom : Stage × Bytes → Except ResponseFault ResponseParts
  | (.start, bytes) => readResponse method limit ⟨bytes, ending⟩
  | (.headers status before, bytes) =>
    readHeaders ending (maxHeaders - before.length) bytes >>= fun r =>
      headOrNext ending ({ status, headers := before ++ r.1 }, r.2) >>= bodyFrom method limit ending
  | (.chunks head out, bytes) =>
    (readChunks ending limit.toNat out bytes).map fun r => head.parts r.1
  | (.trailers head out, bytes) =>
    (skipTrailers ending bytes).map fun _ => head.parts ⟨out, false⟩

end

section

variable {method : String} {limit : UInt64} {ending : StreamEnd}

/-- What the passes from a state on come to, after the one that gave the state. -/
def restOf (method : String) (limit : UInt64) (ending : StreamEnd) :
    (Stage × Bytes) ⊕ ResponseParts → Except ResponseFault ResponseParts :=
  Sum.elim (responseFrom method limit ending) .ok

theorem behindHead_eq (head : Head) (bytes : Bytes) :
    headOrNext ending (head, bytes) >>= bodyFrom method limit ending =
      behindHead method limit ending head bytes >>= restOf method limit ending := by
  rw [headOrNext, behindHead]
  dsimp only
  split
  · exact (readResponse_eq method limit ending bytes).symm
  rw [ok_bind, bodyFrom]
  dsimp only
  split
  · rfl
  rw [readBody]
  cases framingOf head.headers with
  | chunked =>
    change (Except.map _ (Except.map _ _)) = Except.map _ _
    cases readChunks ending limit.toNat [] bytes <;> rfl
  | length text =>
    dsimp only
    cases readLength ending limit.toNat text bytes <;> rfl
  | untilClose =>
    dsimp only
    cases readUntilClose ending limit bytes <;> rfl

theorem responseFrom_start (bytes : Bytes) :
    responseFrom method limit ending (.start, bytes) =
      readingPass method limit ending (.start, bytes) >>= restOf method limit ending := by
  rw [responseFrom, readResponse_eq, readHead_eq, readAnyHead_eq, readingPass]
  cases readLine ending bytes with
  | error e => rfl
  | ok r =>
    simp only [ok_bind, headFrom]
    cases statusOf r.1 with
    | error e => rfl
    | ok status =>
      simp only [ok_bind]
      change _ = readHeaders ending maxHeaders r.2 >>= _
      cases readHeaders ending maxHeaders r.2 <;> rfl

theorem responseFrom_headers (status : Nat) (before : List (String × String)) (bytes : Bytes) :
    responseFrom method limit ending (.headers status before, bytes) =
      readingPass method limit ending (.headers status before, bytes) >>=
        restOf method limit ending := by
  rw [responseFrom, readHeaders_eq, readingPass]
  cases readLine ending bytes with
  | error e => rfl
  | ok r =>
    simp only [ok_bind, headersFrom]
    by_cases hempty : r.1.isEmpty = true
    · rw [if_pos hempty, if_pos hempty, ok_bind, List.append_nil]
      exact behindHead_eq _ _
    rw [if_neg hempty, if_neg hempty]
    by_cases hroom : maxHeaders ≤ before.length
    · rw [if_pos hroom, Nat.sub_eq_zero_of_le hroom]
      rfl
    obtain ⟨room, hroom'⟩ : ∃ room, maxHeaders - before.length = room + 1 :=
      ⟨maxHeaders - before.length - 1, by omega⟩
    rw [if_neg hroom, hroom']
    cases headerOf r.1 with
    | error e => rfl
    | ok header =>
      have hroom'' : maxHeaders - (before ++ [header]).length = room := by
        rw [List.length_append, List.length_singleton]
        omega
      change _ = readHeaders ending (maxHeaders - (before ++ [header]).length) r.2 >>= _
      rw [hroom'']
      simp only [ok_bind]
      cases readHeaders ending room r.2 with
      | error e => rfl
      | ok more =>
        simp only [Except.map, ok_bind, List.append_assoc, List.singleton_append]

theorem responseFrom_chunks (head : Head) (out bytes : Bytes) :
    responseFrom method limit ending (.chunks head out, bytes) =
      readingPass method limit ending (.chunks head out, bytes) >>=
        restOf method limit ending := by
  rw [responseFrom, readChunks_eq, readingPass, chunkPass]
  cases readLine ending bytes with
  | error e => rfl
  | ok r =>
    simp only [ok_bind]
    cases chunkSizeOf r.1 with
    | error e => rfl
    | ok size =>
      simp only [ok_bind]
      by_cases hlast : size = 0
      · rw [if_pos hlast, if_pos hlast]
        change _ = (skipTrailers ending r.2).map _
        cases skipTrailers ending r.2 <;> rfl
      rw [if_neg hlast, if_neg hlast]
      cases readExactly ending (min size (limit.toNat - out.length)) r.2 with
      | error e => rfl
      | ok data =>
        simp only [ok_bind]
        by_cases hpast : limit.toNat - out.length < size
        · rw [if_pos hpast, if_pos hpast]
          rfl
        rw [if_neg hpast, if_neg hpast]
        cases readLine ending data.2 <;> rfl

theorem responseFrom_trailers (head : Head) (out bytes : Bytes) :
    responseFrom method limit ending (.trailers head out, bytes) =
      readingPass method limit ending (.trailers head out, bytes) >>=
        restOf method limit ending := by
  rw [responseFrom, skipTrailers_eq, readingPass]
  cases readLine ending bytes with
  | error e => rfl
  | ok r =>
    simp only [ok_bind]
    split <;> rfl

theorem responseFrom_eq (s : Stage × Bytes) : responseFrom method limit ending s =
    readingPass method limit ending s >>= restOf method limit ending := by
  obtain ⟨stage, bytes⟩ := s
  cases stage with
  | start => exact responseFrom_start bytes
  | headers status before => exact responseFrom_headers status before bytes
  | chunks head out => exact responseFrom_chunks head out bytes
  | trailers head out => exact responseFrom_trailers head out bytes

end

/-! ## Bounds -/

/-- Whether a snapshot has no more than the limit, and no less if there was more. -/
structure Snapshot.IsBounded (limit : Nat) (s : Snapshot) : Prop where
  body : s.body.length ≤ limit
  full : s.truncated = true → s.body.length = limit

/-- Whether a head can be the last one. -/
structure Head.IsBounded (h : Head) : Prop where
  status : h.status = 101 ∨ 200 ≤ h.status ∧ h.status ≤ 999
  headers : h.headers.length ≤ 256

structure ResponseParts.IsBounded (limit : Nat) (p : ResponseParts) : Prop where
  head : Head.IsBounded ⟨p.status, p.headers⟩
  snapshot : p.snapshot.IsBounded limit

/-- What holds at every stage: no more was read than a response has. -/
def Stage.IsBounded (limit : Nat) : Stage → Prop
  | start => True
  | headers status before => (100 ≤ status ∧ status ≤ 999) ∧ before.length ≤ 256
  | chunks head out => head.IsBounded ∧ out.length ≤ limit
  | trailers head out => head.IsBounded ∧ out.length ≤ limit

/-- What a pass is for: the next stage is in bounds and fewer bytes are left than before, or the
    result is in bounds. -/
def Progress (limit before : Nat) : (Stage × Bytes) ⊕ ResponseParts → Prop :=
  Sum.elim (fun t => t.1.IsBounded limit ∧ t.2.length < before) (ResponseParts.IsBounded limit)

theorem range_of_statusOf {line : String} {status : Nat} (h : statusOf line = .ok status) :
    100 ≤ status ∧ status ≤ 999 := by
  rw [statusOf] at h
  split at h
  · split at h
    · split at h
      · next hrange =>
        obtain rfl := Except.ok.inj h
        exact ⟨hrange.1, Nat.le_of_lt_succ hrange.2⟩
      · cases h
    · cases h
  · cases h

theorem length_rest_le_of_readExactly {ending : StreamEnd} {count : Nat} {bytes data rest : Bytes}
    (h : readExactly ending count bytes = .ok (data, rest)) : rest.length ≤ bytes.length := by
  rw [readExactly] at h
  split at h
  · cases h
    rw [List.length_drop]
    omega
  · cases h

section

variable {method : String} {limit : UInt64} {ending : StreamEnd}

theorem isBounded_of_readLength {limit : Nat} {text : String} {bytes : Bytes} {s : Snapshot}
    (h : readLength ending limit text bytes = .ok s) : s.IsBounded limit := by
  rw [readLength] at h
  split at h
  · cases h
  next length _ =>
  obtain ⟨⟨data, rest⟩, hread, rfl⟩ := map_eq_ok_iff.1 h
  have hlength := length_of_readExactly hread
  refine ⟨by dsimp only; omega, fun htruncated => ?_⟩
  have hlt : limit < length := of_decide_eq_true htruncated
  dsimp only
  omega

theorem isBounded_of_readUntilClose {bytes : Bytes} {s : Snapshot}
    (h : readUntilClose ending limit bytes = .ok s) : s.IsBounded limit.toNat := by
  obtain ⟨out, -, rfl⟩ := map_eq_ok_iff.1 h
  have hlength : (out.take limit.toNat).length = min limit.toNat out.length := List.length_take
  refine ⟨by dsimp only; omega, fun htruncated => ?_⟩
  have hlt : limit.toNat < out.length := of_decide_eq_true htruncated
  dsimp only
  omega

theorem progress_of_behindHead {head : Head} {bytes : Bytes} {before : Nat}
    {o : (Stage × Bytes) ⊕ ResponseParts} (h : behindHead method limit ending head bytes = .ok o)
    (hstatus : 100 ≤ head.status ∧ head.status ≤ 999) (hheaders : head.headers.length ≤ 256)
    (hbytes : bytes.length < before) : Progress limit.toNat before o := by
  rw [behindHead] at h
  split at h
  · cases h
    exact ⟨trivial, hbytes⟩
  next hfinal =>
  have hhead : head.IsBounded := by
    refine ⟨?_, hheaders⟩
    rw [isInterim_iff] at hfinal
    omega
  split at h
  · cases h
    exact ⟨hhead, Nat.zero_le _, nofun⟩
  split at h
  · cases h
    exact ⟨⟨hhead, Nat.zero_le _⟩, hbytes⟩
  · obtain ⟨s, hs, rfl⟩ := map_eq_ok_iff.1 h
    exact ⟨hhead, isBounded_of_readLength hs⟩
  · obtain ⟨s, hs, rfl⟩ := map_eq_ok_iff.1 h
    exact ⟨hhead, isBounded_of_readUntilClose hs⟩

/-- One case for each stage. -/
theorem progress_of_readingPass {s : Stage × Bytes} {o : (Stage × Bytes) ⊕ ResponseParts}
    (h : readingPass method limit ending s = .ok o) (hs : s.1.IsBounded limit.toNat) :
    Progress limit.toNat s.2.length o := by
  obtain ⟨stage, bytes⟩ := s
  cases stage with
  | start =>
    obtain ⟨⟨line, rest⟩, hline, h⟩ := bind_eq_ok_iff.1 h
    obtain ⟨status, hstatus, h⟩ := bind_eq_ok_iff.1 h
    cases h
    exact ⟨⟨range_of_statusOf hstatus, Nat.zero_le _⟩, readLine_lt hline⟩
  | headers status before =>
    obtain ⟨⟨line, rest⟩, hline, h⟩ := bind_eq_ok_iff.1 h
    dsimp only at h
    split at h
    · exact progress_of_behindHead h hs.1 hs.2 (readLine_lt hline)
    split at h
    · cases h
    next hroom =>
    obtain ⟨header, -, h⟩ := bind_eq_ok_iff.1 h
    cases h
    refine ⟨⟨hs.1, ?_⟩, readLine_lt hline⟩
    rw [List.length_append, List.length_singleton]
    exact Nat.lt_of_not_le hroom
  | chunks head out =>
    obtain ⟨⟨line, rest⟩, hline, h⟩ := bind_eq_ok_iff.1 h
    obtain ⟨size, -, h⟩ := bind_eq_ok_iff.1 h
    have hrest := readLine_lt hline
    split at h
    · cases h
      exact ⟨hs, hrest⟩
    obtain ⟨⟨data, rest'⟩, hdata, h⟩ := bind_eq_ok_iff.1 h
    have hlength := length_of_readExactly hdata
    have hout : out.length ≤ limit.toNat := hs.2
    dsimp only at h
    split at h
    · next hpast =>
      cases h
      have hfull : (out ++ data).length = limit.toNat := by
        rw [List.length_append]
        omega
      exact ⟨hs.1, Nat.le_of_eq hfull, fun _ => hfull⟩
    next hroom =>
    obtain ⟨⟨_, rest''⟩, hbreak, h⟩ := bind_eq_ok_iff.1 h
    cases h
    have hrest' := length_rest_le_of_readExactly hdata
    have hrest'' := readLine_lt hbreak
    refine ⟨⟨hs.1, ?_⟩, ?_⟩
    · rw [List.length_append]
      omega
    · dsimp only
      omega
  | trailers head out =>
    obtain ⟨⟨line, rest⟩, hline, h⟩ := bind_eq_ok_iff.1 h
    dsimp only at h
    split at h
    · cases h
      exact ⟨hs.1, hs.2, nofun⟩
    · cases h
      exact ⟨hs, readLine_lt hline⟩

theorem next_of_readingPass {s t : Stage × Bytes}
    (h : readingPass method limit ending s = .ok (.inl t)) (hs : s.1.IsBounded limit.toNat) :
    t.1.IsBounded limit.toNat ∧ t.2.length < s.2.length :=
  progress_of_readingPass h hs

theorem result_of_readingPass {s : Stage × Bytes} {parts : ResponseParts}
    (h : readingPass method limit ending s = .ok (.inr parts)) (hs : s.1.IsBounded limit.toNat) :
    parts.IsBounded limit.toNat :=
  progress_of_readingPass h hs

end

/-- Whatever arrives, reading a response comes to an end: to a response or to a fault, in no more
    passes than there are bytes, and one. The room that the limit leaves for a chunk is never
    negative, and the count of the bytes to read until the stream is closed does not overflow. Of a
    response, the status, the headers and the body are bounded, and a body that is cut off has all
    the bytes up to the limit. -/
theorem readResponse_bounded (request : Request) {limit : UInt64}
    (hlimit : limit < 18446744073709551615) (incoming : Incoming) :
    (∃ n ≤ incoming.bytes.length + 1,
      Finishes (readingPass request.method limit incoming.ending) n (.start, incoming.bytes)
        (readResponse request.method limit incoming)) ∧
    (∀ head out bytes, LeadsTo (readingPass request.method limit incoming.ending)
      (.start, incoming.bytes) (.chunks head out, bytes) → out.length ≤ limit.toNat) ∧
    (limit + 1).toNat = limit.toNat + 1 ∧
    ∀ parts, readResponse request.method limit incoming = .ok parts →
      parts.IsBounded limit.toNat := by
  have hstart : Stage.start.IsBounded limit.toNat := trivial
  obtain ⟨n, hn, hfinishes⟩ : ∃ n ≤ incoming.bytes.length + 1,
      Finishes (readingPass request.method limit incoming.ending) n (.start, incoming.bytes)
        (readResponse request.method limit incoming) :=
    exists_finishes (P := fun s => s.1.IsBounded limit.toNat)
      (@responseFrom_eq request.method limit incoming.ending) (fun s => s.2.length)
      next_of_readingPass (s := (.start, incoming.bytes)) hstart
  refine ⟨⟨n, hn, hfinishes⟩, fun head out bytes hleads => ?_,
    toNat_add_one (UInt64.ne_of_lt hlimit), fun parts hparts => ?_⟩
  · have hchunks : (Stage.chunks head out).IsBounded limit.toNat :=
      hleads.induct (P := fun s => s.1.IsBounded limit.toNat)
        (fun h hs => (next_of_readingPass h hs).1) hstart
    exact hchunks.2
  · rw [hparts] at hfinishes
    exact hfinishes.induct (P := fun s => s.1.IsBounded limit.toNat)
      (fun h hs => (next_of_readingPass h hs).1) result_of_readingPass hstart

/-- A chunk of three bytes, for two of which there is room, in a response that is not cut off. -/
theorem readResponse_bounded_greeting :
    let r := WireResponse.greeting
    let request : Request := ⟨"GET", { scheme := .https, host := .name "example.com" }, []⟩
    let parts : ResponseParts := ⟨200, [("Transfer-Encoding", "Chunked")], ⟨[104, 195], true⟩⟩
    (2 : UInt64) < 18446744073709551615 ∧
      readResponse request.method 2 ⟨r.bytes, .closed⟩ = .ok parts ∧ parts.IsBounded 2 := by
  intro r request parts
  have hlimit : (2 : UInt64) < 18446744073709551615 := by decide
  have hchunked : IsChunked r.final.head.headers := ⟨"Chunked", by decide, by decide⟩
  have hbodied : ¬ hasNoBody request.method r.final.head.status = true := by decide
  obtain ⟨c, hc, hsize, hdata⟩ : ∃ c : ChunkedBody, r.body = .chunked c ∧
      (∀ d ∈ c.chunks, d.data.length < 2 ^ 64) ∧ c.data = [104, 195, 169] :=
    ⟨_, rfl, List.forall_mem_singleton.2 (by decide), rfl⟩
  have hbody : readBody .closed 2 r.final.head.headers r.body.bytes = .ok ⟨[104, 195], true⟩ := by
    rw [readBody, framingOf_eq.1 hchunked, hc, WireBody.bytes, ← List.append_nil c.bytes]
    dsimp only
    rw [readChunks_bytes c hsize, hdata]
    rfl
  have hread : readResponse request.method 2 ⟨r.bytes, .closed⟩ = .ok parts := by
    rw [readResponse_eq, WireResponse.bytes, r.reads_final.whole, ok_bind, bodyFrom]
    dsimp only
    rw [if_neg hbodied, hbody]
    rfl
  exact ⟨hlimit, hread, (readResponse_bounded request hlimit _).2.2.2 parts hread⟩

end NetProbe.Http
