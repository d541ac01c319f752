import NetProbe.Net.Fault
import NetProbe.Net.Text
import NetProbe.Text.Blank
import NetProbe.Text.Part
import NetProbe.Text.Utf8
set_option autoImplicit false

/-! # Heads of responses

A response of HTTP/1.1 starts with a head: a status line, headers, and an empty line. Heads with an
interim status are passed over. `readHead` gives the final head and what follows it; lines and
their number are bounded, so that a hostile peer cannot make it read forever. -/

namespace NetProbe.Http

abbrev Bytes := List UInt8

/-- How a stream ends behind its last byte. -/
inductive StreamEnd where
  | closed
  | failed (e : IoError)
deriving DecidableEq, Repr

/-- What arrives on a stream. -/
structure Incoming where
  bytes : Bytes
  ending : StreamEnd
deriving DecidableEq, Repr

/-- Why what arrives is no response. -/
inductive ResponseFault where
  | endOfStream
  | io (e : IoError)
  | longLine
  | notUtf8
  | statusLine (line : String)
  | manyHeaders
  | header (line : String)
  | contentLength (text : String)
  | chunkSize (text : String)
deriving DecidableEq, Repr

def ResponseFault.failure : ResponseFault → String
  | endOfStream => FailureName.endOfStream
  | io e => e.failure
  | longLine => FailureName.unknown "HTTP line too long"
  | notUtf8 => FailureName.unknown "HTTP head is not UTF-8"
  | statusLine line => FailureName.unknown ("malformed HTTP status line " ++ Text.quote line)
  | manyHeaders => FailureName.unknown "too many HTTP headers"
  | header line => FailureName.unknown ("malformed HTTP header " ++ Text.quote line)
  | contentLength text => FailureName.unknown ("invalid Content-Length " ++ Text.quote text)
  | chunkSize text => FailureName.unknown ("invalid chunk size " ++ Text.quote text)

/-- What a reader says that needs more bytes than there are. -/
def StreamEnd.fault : StreamEnd → ResponseFault
  | closed => .endOfStream
  | failed e => .io e

/-! ## Lines -/

/-- The most bytes of a line with its end. -/
def maxLine : Nat := 16384

/-- The most headers of a head. -/
def maxHeaders : Nat := 256

def lineFeed : UInt8 := 10

/-- The bytes up to the first line feed and with it, at most `most` of them. -/
def takeLine : Nat → Bytes → Bytes
  | 0, _ => []
  | _, [] => []
  | most + 1, b :: rest => if b = lineFeed then [b] else b :: takeLine most rest

/-- A line without the breaks at its end. -/
def withoutBreaks (line : Bytes) : Bytes :=
  (line.reverse.dropWhile fun b => b = 10 || b = 13).reverse

/-- The line at the front of a stream that ends in some way, and what follows it. -/
def readLine (ending : StreamEnd) (bytes : Bytes) : Except ResponseFault (String × Bytes) :=
  let line := takeLine maxLine bytes
  if line.getLast? = some lineFeed then
    match Text.ofBytes? (withoutBreaks line) with
    | some text => .ok (text, bytes.drop line.length)
    | none => .error .notUtf8
  else if line.length = maxLine then .error .longLine
  else .error ending.fault

/-- Reading a line takes at least one byte. -/
theorem readLine_lt {ending : StreamEnd} {bytes rest : Bytes} {line : String}
    (h : readLine ending bytes = .ok (line, rest)) : rest.length < bytes.length := by
  unfold readLine at h
  cases bytes with
  | nil => cases ending <;> simp [takeLine, maxLine] at h
  | cons b bs =>
    simp only at h
    split at h
    · next hl =>
      have hne : takeLine maxLine (b :: bs) ≠ [] := by
        intro e; simp [e] at hl
      have := List.length_pos_iff.2 hne
      split at h
      · simp only [Except.ok.injEq, Prod.mk.injEq] at h
        rw [← h.2, List.length_drop]
        simp only [List.length_cons]
        omega
      · simp at h
    · split at h <;> simp at h

/-! ## Numbers -/

/-- The number that digits of a base spell, perhaps behind a plus sign, if it is at most `limit`. -/
def number? (base limit : Nat) (cs : List Char) : Option Nat :=
  let digits := if cs.head? = some '+' then cs.drop 1 else cs
  if digits.isEmpty then none
  else match digits.mapM (AddressText.digit? base) with
    | none => none
    | some ds =>
      let n := ds.foldl (fun n d => n * base + d) 0
      if n ≤ limit then some n else none

/-! ## Heads -/

structure Head where
  status : Nat
  headers : List (String × String)
deriving DecidableEq, Repr

/-- The value of the first header with a name, whatever its case. -/
def header? (headers : List (String × String)) (name : String) : Option String :=
  (headers.find? fun h => Text.sameIgnoringCase h.1 name).map Prod.snd

/-- The status that a status line tells: a version, a space, and a code of three digits; what may
    follow behind another space does not matter. -/
def statusOf (line : String) : Except ResponseFault Nat :=
  let cs := line.toList
  let code := ((cs.dropWhile (· != ' ')).drop 1).takeWhile (· != ' ')
  if "HTTP/1.".toList.isPrefixOf (cs.takeWhile (· != ' ')) then
    match number? 10 65535 code with
    | some n => if 100 ≤ n ∧ n < 1000 then .ok n else .error (.statusLine line)
    | none => .error (.statusLine line)
  else .error (.statusLine line)

/-- The name and the value of a header line, around its first colon. -/
def headerOf (line : String) : Except ResponseFault (String × String) :=
  let cs := line.toList
  if cs.contains ':' then
    let trimmed (part : List Char) := String.ofList (Text.trimChars part)
    .ok (trimmed (cs.takeWhile (· != ':')), trimmed ((cs.dropWhile (· != ':')).drop 1))
  else .error (.header line)

/-- The headers up to the empty line, at most `room` of them, and what follows it. -/
def readHeaders (ending : StreamEnd) :
    Nat → Bytes → Except ResponseFault (List (String × String) × Bytes)
  | room, bytes =>
    match readLine ending bytes with
    | .error e => .error e
    | .ok (line, rest) =>
      if line.isEmpty then .ok ([], rest)
      else match room with
        | 0 => .error .manyHeaders
        | room + 1 =>
          match headerOf line with
          | .error e => .error e
          | .ok h => (readHeaders ending room rest).map fun r => (h :: r.1, r.2)

/-- Reading headers takes at least one byte. -/
theorem readHeaders_lt {ending : StreamEnd} {room : Nat} {bytes rest : Bytes}
    {hs : List (String × String)} (h : readHeaders ending room bytes = .ok (hs, rest)) :
    rest.length < bytes.length := by
  induction room generalizing bytes hs with
  | zero =>
    unfold readHeaders at h
    split at h
    · simp at h
    · next line r hl =>
      split at h
      · simp only [Except.ok.injEq, Prod.mk.injEq] at h
        exact h.2 ▸ readLine_lt hl
      · simp at h
  | succ room ih =>
    unfold readHeaders at h
    split at h
    · simp at h
    · next line r hl =>
      split at h
      · simp only [Except.ok.injEq, Prod.mk.injEq] at h
        exact h.2 ▸ readLine_lt hl
      · simp only at h
        split at h
        · simp at h
        · next hd _ =>
          cases hr : readHeaders ending room r with
          | error e => simp [hr, Except.map] at h
          | ok p =>
            simp only [hr, Except.map, Except.ok.injEq, Prod.mk.injEq] at h
            obtain ⟨_, rfl⟩ := h
            exact Nat.lt_trans (ih hr) (readLine_lt hl)

/-- The head at the front and what follows it. -/
def readAnyHead (ending : StreamEnd) (bytes : Bytes) : Except ResponseFault (Head × Bytes) :=
  match readLine ending bytes with
  | .error e => .error e
  | .ok (line, rest) =>
    match statusOf line with
    | .error e => .error e
    | .ok status =>
      (readHeaders ending maxHeaders rest).map fun r => ({ status, headers := r.1 }, r.2)

/-- Reading a head takes at least one byte. -/
theorem readAnyHead_lt {ending : StreamEnd} {bytes rest : Bytes} {head : Head}
    (h : readAnyHead ending bytes = .ok (head, rest)) : rest.length < bytes.length := by
  unfold readAnyHead at h
  split at h
  · simp at h
  · next line r hl =>
    split at h
    · simp at h
    · cases hr : readHeaders ending maxHeaders r with
      | error e => simp [hr, Except.map] at h
      | ok p =>
        simp only [hr, Except.map, Except.ok.injEq, Prod.mk.injEq] at h
        obtain ⟨_, rfl⟩ := h
        exact Nat.lt_trans (readHeaders_lt hr) (readLine_lt hl)

/-- Whether another head follows one with this status. -/
def isInterim (status : Nat) : Bool :=
  100 ≤ status && status < 200 && status != 101

/-- The final head and what follows it. -/
def readHead (ending : StreamEnd) (bytes : Bytes) : Except ResponseFault (Head × Bytes) :=
  match _h : readAnyHead ending bytes with
  | .error e => .error e
  | .ok (head, rest) =>
    if isInterim head.status then readHead ending rest else .ok (head, rest)
termination_by bytes.length
decreasing_by exact readAnyHead_lt _h

end NetProbe.Http
