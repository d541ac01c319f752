import NetProbe.Http.Head
set_option autoImplicit false

/-! # Responses

A response is a head and a snapshot of its body: the bytes up to a limit, and whether there were
more. In HTTP/1.1 the body comes in chunks, or has an announced length, or lasts until the peer
closes the stream; in HTTP/3 it comes in frames. `readResponse` and `Frames.response` give the
response in either case. -/

namespace NetProbe.Http

/-- The bytes of a body up to a limit, and whether there were more. -/
structure Snapshot where
  body : Bytes
  truncated : Bool
deriving DecidableEq, Repr

structure ResponseParts where
  status : Nat
  headers : List (String × String)
  snapshot : Snapshot
deriving DecidableEq, Repr

/-! ## Bodies of HTTP/1.1 -/

/-- How the end of a body is told. -/
inductive Framing where
  | chunked
  /-- By its length, as it was announced. -/
  | length (text : String)
  | untilClose
deriving DecidableEq, Repr

/-- Chunks win over an announced length. -/
def framingOf (headers : List (String × String)) : Framing :=
  let chunked := (header? headers "transfer-encoding").any fun v =>
    Text.holds (Text.toLowerAscii v) "chunked"
  if chunked then .chunked
  else match header? headers "content-length" with
    | some text => .length text
    | none => .untilClose

/-- So many bytes and what follows them. -/
def readExactly (ending : StreamEnd) (count : Nat) (bytes : Bytes) :
    Except ResponseFault (Bytes × Bytes) :=
  if count ≤ bytes.length then .ok (bytes.take count, bytes.drop count) else .error ending.fault

/-- What follows the empty line that ends the trailers. -/
def skipTrailers (ending : StreamEnd) (bytes : Bytes) : Except ResponseFault Bytes :=
  match _h : readLine ending bytes with
  | .error e => .error e
  | .ok (line, rest) => if line.isEmpty then .ok rest else skipTrailers ending rest
termination_by bytes.length
decreasing_by exact readLine_lt _h

/-- The size of a chunk, which stands before the first semicolon of its line. -/
def chunkSizeOf (line : String) : Except ResponseFault Nat :=
  let field := Text.trimChars (line.toList.takeWhile (· != ';'))
  match number? 16 18446744073709551615 field with
  | some n => .ok n
  | none => .error (.chunkSize (String.ofList field))

/-- The chunks that follow the bytes `out`, up to a limit for all of them, and what follows the
    chunks that were read. -/
def readChunks (ending : StreamEnd) (limit : Nat) (out bytes : Bytes) :
    Except ResponseFault (Snapshot × Bytes) :=
  match _h : readLine ending bytes with
  | .error e => .error e
  | .ok (line, rest) =>
    match chunkSizeOf line with
    | .error e => .error e
    | .ok 0 => (skipTrailers ending rest).map fun rest => (⟨out, false⟩, rest)
    | .ok size =>
      let room := limit - out.length
      match _hx : readExactly ending (min size room) rest with
      | .error e => .error e
      | .ok (data, rest') =>
        if room < size then .ok (⟨out ++ data, true⟩, rest')
        else match _hl : readLine ending rest' with
          | .error e => .error e
          | .ok (_, rest'') => readChunks ending limit (out ++ data) rest''
termination_by bytes.length
decreasing_by
  have h₁ := readLine_lt _h
  have h₂ := readLine_lt _hl
  have h₃ : rest'.length ≤ rest.length := by
    unfold readExactly at _hx
    split at _hx
    · simp only [Except.ok.injEq, Prod.mk.injEq] at _hx
      rw [← _hx.2, List.length_drop]
      omega
    · simp at _hx
  omega

/-- A body of an announced length. -/
def readLength (ending : StreamEnd) (limit : Nat) (text : String) (bytes : Bytes) :
    Except ResponseFault Snapshot :=
  match number? 10 18446744073709551615 text.toList with
  | none => .error (.contentLength text)
  | some length =>
    (readExactly ending (min length limit) bytes).map fun r => ⟨r.1, limit < length⟩

/-- A body that lasts until the stream is closed. One byte more than the limit tells whether there
    are more; the count of these bytes has sixty-four bits. -/
def readUntilClose (ending : StreamEnd) (limit : UInt64) (bytes : Bytes) :
    Except ResponseFault Snapshot :=
  let most := (limit + 1).toNat
  let found : Except ResponseFault Bytes :=
    if most ≤ bytes.length then .ok (bytes.take most)
    else match ending with
      | .closed => .ok bytes
      | .failed e => .error (.io e)
  found.map fun out => ⟨out.take limit.toNat, limit.toNat < out.length⟩

/-- The snapshot of a body with these headers. -/
def readBody (ending : StreamEnd) (limit : UInt64) (headers : List (String × String))
    (bytes : Bytes) : Except ResponseFault Snapshot :=
  match framingOf headers with
  | .chunked => (readChunks ending limit.toNat [] bytes).map Prod.fst
  | .length text => readLength ending limit.toNat text bytes
  | .untilClose => readUntilClose ending limit bytes

/-- Whether a response to a request with this method has no body. -/
def hasNoBody (method : String) (status : Nat) : Bool :=
  method == "HEAD" || status == 204 || status == 304

/-- The response in what arrives after a request with this method. -/
def readResponse (method : String) (limit : UInt64) (incoming : Incoming) :
    Except ResponseFault ResponseParts :=
  match readHead incoming.ending incoming.bytes with
  | .error e => .error e
  | .ok (head, rest) =>
    let snapshot : Except ResponseFault Snapshot :=
      if hasNoBody method head.status then .ok ⟨[], false⟩
      else readBody incoming.ending limit head.headers rest
    snapshot.map fun s => { status := head.status, headers := head.headers, snapshot := s }

/-! ## Bodies of HTTP/3 -/

/-- What arrives after a request of HTTP/3: the status and the headers, the frames of the body, and
    the message of the fault that ended it, if one did. -/
structure Reply where
  status : Nat
  headers : List (String × Bytes)
  frames : List Bytes
  fault : Option String
deriving DecidableEq, Repr

/-- The snapshot of a body whose frames follow the bytes `out`. -/
def readFrames (limit : Nat) (fault : Option String) (out : Bytes) :
    List Bytes → Except String Snapshot
  | [] =>
    match fault with
    | some message => .error message
    | none => .ok ⟨out, false⟩
  | frame :: rest =>
    let room := limit - out.length
    if room < frame.length then .ok ⟨out ++ frame.take room, true⟩
    else readFrames limit fault (out ++ frame) rest

/-- The response in what arrives; faults are told by their messages. -/
def Reply.response (limit : UInt64) (r : Reply) : Except String ResponseParts :=
  (readFrames limit.toNat r.fault [] r.frames).map fun s =>
    { status := r.status, headers := r.headers.map fun h => (h.1, Text.ofBytesLossy h.2),
      snapshot := s }

end NetProbe.Http
