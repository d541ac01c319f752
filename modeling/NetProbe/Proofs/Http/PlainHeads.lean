import Mathlib.Data.List.DropRight
import NetProbe.Proofs.Http.Heads
set_option autoImplicit false

/-! # Heads read back

Interim heads and a final one, in the plain notation with one space behind the version and behind
the colon of a header, are read as the status and the headers of the last of them, and no byte
behind it is taken (`readHead_bytes`). Every line may end in a line feed or in a carriage return and
a line feed. -/

namespace NetProbe.Http

/-! ## Lines -/

/-- A text with a break behind it: a line feed, with a carriage return before it if the break is not
    bare. -/
def brokenLine (text : String) (bare : Bool) : Bytes :=
  Text.toBytes text ++ if bare then [10] else [13, 10]

/-- Whether a text can be sent as a line with such a break. -/
structure FitsLine (text : String) (bare : Bool) : Prop where
  unbroken : '\n' ∉ text.toList
  short : (brokenLine text bare).length ≤ maxLine

namespace FitsLine

variable {text : String} {bare : Bool}

def ended (h : FitsLine text bare) (hkept : text.toList.getLast? ≠ some '\r') : EndedLine where
  text := text
  bare := bare
  unbroken := h.unbroken
  kept := hkept
  short := by
    have hshort := h.short
    cases bare <;> simpa [brokenLine] using hshort

theorem bytes_ended (h : FitsLine text bare) (hkept : text.toList.getLast? ≠ some '\r') :
    (h.ended hkept).bytes = brokenLine text bare := by
  cases bare <;> simp [EndedLine.bytes, EndedLine.front, ended, brokenLine, lineFeed]

theorem blank (bare : Bool) : FitsLine "" bare where
  unbroken := by decide
  short := by
    rw [brokenLine, Text.toBytes_eq_flatMap]
    cases bare <;> decide

theorem of_length (hunbroken : '\n' ∉ text.toList) (hlength : text.toList.length ≤ 80) :
    FitsLine text bare where
  unbroken := hunbroken
  short := by
    have hbytes := Text.length_toBytes_le text
    have hbreak : (if bare then [10] else [13, 10] : Bytes).length ≤ 2 := by cases bare <;> decide
    rw [brokenLine, List.length_append]
    unfold maxLine
    omega

end FitsLine

/-- A part of a line fits on one too. -/
theorem FitsLine.front {text kept : String} {rest : List Char} {bare : Bool}
    (h : FitsLine text bare) (htext : text.toList = kept.toList ++ rest) : FitsLine kept true where
  unbroken hmem := h.unbroken (htext ▸ List.mem_append_left _ hmem)
  short := by
    have hshort := h.short
    rw [brokenLine, Text.toBytes_eq_flatMap, htext, List.flatMap_append, ← Text.toBytes_eq_flatMap,
      List.length_append, List.length_append] at hshort
    have hbreak : 1 ≤ (if bare then [10] else [13, 10] : Bytes).length := by cases bare <;> decide
    rw [brokenLine, List.length_append]
    change _ + 1 ≤ _
    omega

/-- Carriage returns at the end of a text are taken for a part of the break behind it. -/
theorem reads_brokenLine {text kept : String} {returns : List Char} {bare : Bool}
    (h : FitsLine text bare) (htext : text.toList = kept.toList ++ returns)
    (hreturns : ∀ c ∈ returns, c = '\r') (hkept : kept.toList.getLast? ≠ some '\r') :
    Reads readLine (brokenLine text bare) fun rest => (kept, rest) := by
  have hline : brokenLine text bare = Text.toBytes kept ++
      (returns.flatMap String.utf8EncodeChar ++ if bare then [] else [13]) ++ [lineFeed] := by
    rw [brokenLine, Text.toBytes_eq_flatMap, htext, List.flatMap_append, ← Text.toBytes_eq_flatMap]
    cases bare <;> simp [lineFeed]
  have hshort := h.short
  rw [hline, List.length_append] at hshort
  rw [hline]
  refine reads_text (h.front htext).unbroken hkept ?_ (Nat.lt_of_succ_le hshort)
  rw [List.forall_mem_append]
  constructor
  · intro b hb
    obtain ⟨c, hc, hb⟩ := List.mem_flatMap.1 hb
    rw [hreturns c hc] at hb
    exact List.mem_singleton.1 hb
  · cases bare <;> simp

/-! ## Headers -/

/-- A header as it is sent: a name, a colon, a space and a value. -/
structure PlainHeader where
  name : String
  value : String
  bare : Bool := false
  uncoloned : ':' ∉ name.toList
  trimmedName : Trimmed name.toList
  trimmedValue : Trimmed value.toList
  fits : FitsLine (name ++ ": " ++ value) bare

namespace PlainHeader

def bytes (h : PlainHeader) : Bytes := brokenLine (h.name ++ ": " ++ h.value) h.bare

/-- The last character is that of the value or the space before it. -/
theorem getLast?_ne_return (h : PlainHeader) :
    (h.name ++ ": " ++ h.value).toList.getLast? ≠ some '\r' := by
  rw [String.toList_append, List.getLast?_append]
  cases hlast : h.value.toList.getLast? with
  | none => simp
  | some c =>
    rintro ⟨⟩
    exact absurd (h.trimmedValue.2 _ hlast) (by decide)

/-- The notation is one of those that peers may use. -/
def line (h : PlainHeader) : HeaderLine where
  line := h.fits.ended h.getLast?_ne_return
  name := h.name
  value := h.value
  spelled := ⟨[], [], [' '], [], by simp [Text.isBlank], by simp [FitsLine.ended]⟩
  uncoloned := h.uncoloned
  trimmedName := h.trimmedName
  trimmedValue := h.trimmedValue

theorem bytes_line (h : PlainHeader) : h.line.line.bytes = h.bytes :=
  h.fits.bytes_ended h.getLast?_ne_return

end PlainHeader

/-! ## Heads -/

/-- What stands behind the code: nothing, or a space and a reason. -/
def reasonText : Option String → String
  | none => ""
  | some reason => " " ++ reason

def statusLine (version : String) (status : Nat) (reason : Option String) : String :=
  version ++ " " ++ toString status ++ reasonText reason

theorem toList_statusLine (version : String) (status : Nat) (reason : Option String) :
    (statusLine version status reason).toList =
      version.toList ++ ' ' :: (Nat.toDigits 10 status ++ (reasonText reason).toList) := by
  simp [statusLine, Nat.toString_eq_repr, Nat.toList_repr]

/-- The carriage returns at the end of a text. -/
theorem exists_returns (cs : List Char) : ∃ kept returns, cs = kept ++ returns ∧
    (∀ c ∈ returns, c = '\r') ∧ kept.getLast? ≠ some '\r' := by
  refine ⟨cs.rdropWhile (· == '\r'), cs.rtakeWhile (· == '\r'),
    List.rdropWhile_append_rtakeWhile.symm, ?_, ?_⟩
  · exact fun c hc => by simpa using List.mem_rtakeWhile_imp hc
  · intro hlast
    have hne : cs.rdropWhile (· == '\r') ≠ [] := List.ne_nil_of_mem (List.mem_of_getLast? hlast)
    have hno := List.rdropWhile_last_not (· == '\r') cs hne
    rw [List.getLast?_eq_some_getLast hne] at hlast
    rw [Option.some.inj hlast] at hno
    exact hno rfl

/-- A head as it is sent: a status line with a code of three digits, headers, and an empty line. -/
structure PlainHead where
  version : String
  status : Nat
  reason : Option String := none
  startBare : Bool := false
  headers : List PlainHeader := []
  endBare : Bool := false
  isHttp : "HTTP/1.".toList <+: version.toList
  unspaced : ' ' ∉ version.toList
  range : 100 ≤ status ∧ status < 1000
  few : headers.length ≤ maxHeaders
  fits : FitsLine (statusLine version status reason) startBare

namespace PlainHead

def bytes (h : PlainHead) : Bytes :=
  brokenLine (statusLine h.version h.status h.reason) h.startBare ++
    (h.headers.flatMap PlainHeader.bytes ++ brokenLine "" h.endBare)

/-- What the head says. -/
def head (h : PlainHead) : Head where
  status := h.status
  headers := h.headers.map fun h => (h.name, h.value)

/-- What stands behind the code does not matter for the status, nor how much of it is taken for a
    break. -/
theorem exists_line (h : PlainHead) : ∃ line,
    Reads readLine (brokenLine (statusLine h.version h.status h.reason) h.startBare)
      (fun rest => (line, rest)) ∧ statusOf line = .ok h.status := by
  obtain ⟨kept, returns, hreason, hreturns, hlast⟩ := exists_returns (reasonText h.reason).toList
  have hcode := spells_decimal h.status
  have htext : (statusLine h.version h.status h.reason).toList =
      (String.ofList (h.version.toList ++ ' ' :: (Nat.toDigits 10 h.status ++ kept))).toList ++
        returns := by
    rw [toList_statusLine, hreason]
    simp
  have hkept : (String.ofList (h.version.toList ++ ' ' :: (Nat.toDigits 10 h.status ++
      kept))).toList.getLast? ≠ some '\r' := by
    rw [String.toList_ofList, List.getLast?_append, List.getLast?_cons, List.getLast?_append,
      Option.some_or]
    -- The last character is one of the reason, if any is left, or a digit.
    cases hc : kept.getLast? with
    | some c => simpa [hc] using hlast
    | none =>
      cases hd : (Nat.toDigits 10 h.status).getLast? with
      | none => decide
      | some d =>
        rintro ⟨⟩
        exact hcode.not_mem (by decide) (List.mem_of_getLast? hd)
  have hseparate : kept = [] ∨ kept.head? = some ' ' := by
    cases kept with
    | nil => exact .inl rfl
    | cons c kept =>
      cases hr : h.reason with
      | none => simp [hr, reasonText] at hreason
      | some r =>
        rw [hr, reasonText, String.toList_append] at hreason
        exact .inr (congrArg some (List.cons.inj hreason).1.symm)
  exact ⟨_, reads_brokenLine h.fits htext hreturns hkept, statusOf_statusLine {
    line := (h.fits.front htext).ended hkept
    version := h.version.toList
    code := Nat.toDigits 10 h.status
    reason := kept
    status := h.status
    spelled := String.toList_ofList
    isHttp := h.isHttp
    unspaced := h.unspaced
    isCode := hcode
    range := h.range
    separate := hseparate }⟩

theorem reads (h : PlainHead) : Reads readAnyHead h.bytes fun rest => (h.head, rest) := by
  obtain ⟨line, hline, hstatus⟩ := h.exists_line
  have hfew : (h.headers.map PlainHeader.line).length ≤ maxHeaders := by
    rw [List.length_map]
    exact h.few
  have hblank : ((FitsLine.blank h.endBare).ended (by decide)).text = "" := rfl
  have hread := reads_headFrom hline hstatus hfew hblank
  have hbytes : (h.headers.map PlainHeader.line).flatMap (·.line.bytes) =
      h.headers.flatMap PlainHeader.bytes := by
    rw [List.flatMap_map]
    exact List.flatMap_congr fun header _ => header.bytes_line
  rw [hbytes, FitsLine.bytes_ended, List.map_map] at hread
  exact hread

end PlainHead

/-- Whatever heads come before it, and whatever follows, a final head is read as its status and its
    headers, with their names and values in their order, and to its last byte. -/
theorem readHead_bytes {interims : List PlainHead} {final : PlainHead}
    (hinterims : ∀ h ∈ interims, h.status < 200 ∧ h.status ≠ 101)
    (hfinal : final.status = 101 ∨ 200 ≤ final.status) (ending : StreamEnd) (rest : Bytes) :
    readHead ending (interims.flatMap PlainHead.bytes ++ final.bytes ++ rest) = .ok ({
      status := final.status
      headers := final.headers.map fun h => (h.name, h.value) }, rest) := by
  have hinterim : ∀ h ∈ interims, isInterim h.head.status = true := fun h hh =>
    isInterim_iff.2 ⟨h.range.1, hinterims h hh⟩
  exact (reads_heads PlainHead.reads hinterim (isInterim_eq_false hfinal)).whole ending rest

/-- Lines of an interim head end in line feeds only. -/
def PlainHead.early : PlainHead where
  version := "HTTP/1.0"
  status := 103
  reason := some "Early Hints"
  startBare := true
  headers := [{
    name := "Link"
    value := "</style.css>; rel=preload"
    bare := true
    uncoloned := by decide
    trimmedName := trimmed_of_all (by decide)
    trimmedValue := trimmed_of_all (by decide)
    fits := .of_length (by decide) (by decide) }]
  endBare := true
  isHttp := by decide
  unspaced := by decide
  range := by decide
  few := by decide
  fits := .of_length (by decide) (by decide)

/-- A reason that ends in a carriage return, a value with a colon and one of no characters. -/
def PlainHead.moved : PlainHead where
  version := "HTTP/1.0"
  status := 301
  reason := some "Moved\r"
  headers := [{
    name := "Location"
    value := "http://localhost: 8080/"
    uncoloned := by decide
    trimmedName := trimmed_of_all (by decide)
    trimmedValue := trimmed_of_all (by decide)
    fits := .of_length (by decide) (by decide) }, {
    name := "Server"
    value := ""
    uncoloned := by decide
    trimmedName := trimmed_of_all (by decide)
    trimmedValue := trimmed_of_all (by decide)
    fits := .of_length (by decide) (by decide) }]
  isHttp := by decide
  unspaced := by decide
  range := by decide
  few := by decide
  fits := .of_length (by decide) (by decide)

theorem readHead_bytes_moved :
    (∀ h ∈ [PlainHead.early], h.status < 200 ∧ h.status ≠ 101) ∧
    (PlainHead.moved.status = 101 ∨ 200 ≤ PlainHead.moved.status) ∧
    readHead .closed ([PlainHead.early].flatMap PlainHead.bytes ++ PlainHead.moved.bytes ++
      [13, 10, 72]) = .ok ({
        status := 301
        headers := [("Location", "http://localhost: 8080/"), ("Server", "")] }, [13, 10, 72]) := by
  have hinterims : ∀ h ∈ [PlainHead.early], h.status < 200 ∧ h.status ≠ 101 := by
    rw [List.forall_mem_singleton]
    decide
  have hfinal : PlainHead.moved.status = 101 ∨ 200 ≤ PlainHead.moved.status := .inr (by decide)
  exact ⟨hinterims, hfinal, readHead_bytes hinterims hfinal .closed [13, 10, 72]⟩

end NetProbe.Http
