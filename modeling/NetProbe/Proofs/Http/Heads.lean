import NetProbe.Proofs.Http.Line
import NetProbe.Proofs.Http.Reading
set_option autoImplicit false

/-! # Heads as peers write them

A head is a status line, headers, and an empty line. However the lines end and whatever white space
stands around the names and values, it is read as what it says, and it is read to its last byte
before anything is made of it (`reads_heads`). -/

namespace NetProbe.Http

/-! ## Lines -/

/-- A line as a peer may write it: a text, which does not look longer or shorter for the line feed
    at its end, with or without a carriage return before that. -/
structure EndedLine where
  text : String
  bare : Bool := false
  unbroken : '\n' ∉ text.toList
  kept : text.toList.getLast? ≠ some '\r'
  short : (Text.toBytes text).length + (if bare then 1 else 2) ≤ maxLine

namespace EndedLine

/-- What stands before the line feed. -/
def front (l : EndedLine) : Bytes := Text.toBytes l.text ++ if l.bare then [] else [13]

def bytes (l : EndedLine) : Bytes := l.front ++ [lineFeed]

end EndedLine

/-- The breaks behind a text that does not end in one are those that are taken away. -/
theorem withoutBreaks_text {text : String} (hfeed : '\n' ∉ text.toList)
    (hreturn : text.toList.getLast? ≠ some '\r') {breaks : Bytes}
    (hbreaks : ∀ b ∈ breaks, b = 10 ∨ b = 13) :
    withoutBreaks (Text.toBytes text ++ breaks) = Text.toBytes text := by
  have hdrop : (breaks.reverse ++ (Text.toBytes text).reverse).dropWhile
      (fun b => b = 10 || b = 13) = (Text.toBytes text).reverse := by
    rw [List.dropWhile_append_of_pos (by simpa using hbreaks)]
    cases hrev : (Text.toBytes text).reverse with
    | nil => rfl
    | cons b bs =>
      have hlast : (Text.toBytes text).getLast? = some b := by
        rw [List.getLast?_eq_head?_reverse, hrev]
        rfl
      have hno : (decide (b = 10) || decide (b = 13)) = false := by
        rw [Bool.or_eq_false_iff, decide_eq_false_iff_not, decide_eq_false_iff_not]
        constructor
        · rintro rfl
          exact hfeed ((Text.mem_toBytes_iff (c := '\n') (by decide) text).1
            (List.mem_of_getLast? hlast))
        · rintro rfl
          obtain ⟨c, hc, hval⟩ := Text.getLast?_of_toBytes hlast (by decide)
          have hcr : c = '\r' := Char.toNat_inj.1 hval
          exact hreturn (hcr ▸ hc)
      rw [List.dropWhile_cons, hno]
      rfl
  rw [withoutBreaks, List.reverse_append, hdrop, List.reverse_reverse]

theorem takeLine_of_not_mem {most : Nat} {bs : Bytes} (hbs : lineFeed ∉ bs)
    (hmost : bs.length ≤ most) : takeLine most bs = bs := by
  induction bs generalizing most with
  | nil => cases most <;> rfl
  | cons b bs ih =>
    obtain ⟨hb, hbs⟩ := not_or.1 (mt List.mem_cons.2 hbs)
    obtain ⟨most, rfl⟩ : ∃ k, most = k + 1 := ⟨most - 1, by simp at hmost; omega⟩
    rw [takeLine, if_neg (Ne.symm hb), ih hbs (Nat.le_of_succ_le_succ hmost)]

/-- A text is read up to the line feed behind it, without the carriage returns before that. -/
theorem reads_text {text : String} (hfeed : '\n' ∉ text.toList)
    (hreturn : text.toList.getLast? ≠ some '\r') {returns : Bytes}
    (hreturns : ∀ b ∈ returns, b = 13)
    (hshort : (Text.toBytes text ++ returns).length < maxLine) :
    Reads readLine (Text.toBytes text ++ returns ++ [lineFeed]) fun rest => (text, rest) := by
  have hfront : lineFeed ∉ Text.toBytes text ++ returns := by
    rw [List.mem_append, not_or]
    exact ⟨fun h => hfeed ((Text.mem_toBytes_iff (c := '\n') (by decide) text).1 h),
      fun h => absurd (hreturns _ h) (by decide)⟩
  constructor
  · intro ending rest
    have htake : takeLine maxLine (Text.toBytes text ++ returns ++ [lineFeed] ++ rest) =
        Text.toBytes text ++ returns ++ [lineFeed] := by
      rw [List.append_assoc _ [lineFeed]]
      exact takeLine_append hfront hshort rest
    have htext : withoutBreaks (Text.toBytes text ++ returns ++ [lineFeed]) =
        Text.toBytes text := by
      rw [List.append_assoc]
      refine withoutBreaks_text hfeed hreturn ?_
      rw [List.forall_mem_append]
      exact ⟨fun b hb => .inr (hreturns b hb), List.forall_mem_singleton.2 (.inl rfl)⟩
    rw [readLine]
    simp only [htake, List.getLast?_concat, if_true, htext, Text.ofBytes?_toBytes, List.drop_left]
  · intro ending p hp hne
    have hshorter : p <+: Text.toBytes text ++ returns :=
      (List.prefix_concat_iff.1 hp).resolve_left hne
    have hno : lineFeed ∉ p := fun h => hfront (hshorter.subset h)
    have hlength : p.length < maxLine := Nat.lt_of_le_of_lt hshorter.length_le hshort
    have hlast : p.getLast? ≠ some lineFeed := fun h => hno (List.mem_of_getLast? h)
    rw [readLine]
    simp only [takeLine_of_not_mem hno (Nat.le_of_lt hlength), if_neg hlast,
      if_neg (Nat.ne_of_lt hlength)]

theorem reads_line (l : EndedLine) : Reads readLine l.bytes fun rest => (l.text, rest) := by
  have hshort := l.short
  refine reads_text l.unbroken l.kept ?_ ?_
  · cases l.bare <;> simp
  · cases hbare : l.bare <;> simp [hbare] at hshort ⊢ <;> omega

/-- A line without a carriage return in it that ends in one and a line feed. -/
def Line.ended (l : Line) : EndedLine where
  text := l.text
  bare := false
  unbroken := l.unbroken.1
  kept := fun h => l.unbroken.2 (List.mem_of_getLast? h)
  short := l.short

theorem Line.bytes_ended (l : Line) : l.ended.bytes = l.bytes := by
  simp [EndedLine.bytes, EndedLine.front, Line.ended, Line.bytes, lineFeed]

theorem reads_crlf (l : Line) : Reads readLine l.bytes fun rest => (l.text, rest) :=
  l.bytes_ended ▸ reads_line l.ended

/-! ## Status lines -/

/-- A status line: a version, a code behind a space, and perhaps a reason behind another one. -/
structure StatusLine where
  line : EndedLine
  version : List Char
  code : List Char
  reason : List Char
  status : Nat
  spelled : line.text.toList = version ++ ' ' :: (code ++ reason)
  isHttp : "HTTP/1.".toList <+: version
  unspaced : ' ' ∉ version
  isCode : Spells 10 code status
  range : 100 ≤ status ∧ status < 1000
  separate : reason = [] ∨ reason.head? = some ' '

theorem statusOf_statusLine (s : StatusLine) : statusOf s.line.text = .ok s.status := by
  have hversion : ∀ c ∈ s.version, (c != ' ') = true := by
    intro c hc
    rw [bne_iff_ne]
    rintro rfl
    exact s.unspaced hc
  have hcode : ∀ c ∈ s.code, (c != ' ') = true := by
    intro c hc
    rw [bne_iff_ne]
    rintro rfl
    exact s.isCode.not_mem (by decide) hc
  have hbefore : s.line.text.toList.takeWhile (· != ' ') = s.version := by
    rw [s.spelled, List.takeWhile_append_of_pos hversion]
    simp
  have hbehind : (s.line.text.toList.dropWhile (· != ' ')).drop 1 = s.code ++ s.reason := by
    rw [s.spelled, List.dropWhile_append_of_pos hversion]
    simp
  have hdigits : (s.code ++ s.reason).takeWhile (· != ' ') = s.code := by
    rw [List.takeWhile_append_of_pos hcode]
    rcases s.separate with hnone | hspace
    · rw [hnone]
      exact List.append_nil _
    · obtain ⟨t, ht⟩ : ∃ t, s.reason = ' ' :: t := by
        cases hreason : s.reason with
        | nil => rw [hreason] at hspace; cases hspace
        | cons c t => rw [hreason] at hspace; exact ⟨t, by rw [Option.some.inj hspace]⟩
      rw [ht]
      simp
  have hlimit : s.status ≤ 65535 := by
    have := s.range.2
    omega
  rw [statusOf]
  simp only [hbefore, hbehind, hdigits, if_pos (List.isPrefixOf_iff_prefix.2 s.isHttp),
    number?_of_spells s.isCode hlimit, if_pos s.range]

/-! ## Headers -/

/-- Texts that neither start nor end in white space. -/
def Trimmed (cs : List Char) : Prop :=
  (∀ c, cs.head? = some c → Text.isBlank c = false) ∧
    ∀ c, cs.getLast? = some c → Text.isBlank c = false

theorem trimmed_of_all {cs : List Char} (h : (cs.head?.all (fun c => !Text.isBlank c) &&
    cs.getLast?.all fun c => !Text.isBlank c) = true) : Trimmed cs := by
  rw [Bool.and_eq_true, Option.all_eq_true, Option.all_eq_true] at h
  exact ⟨fun c hc => by simpa using h.1 c hc, fun c hc => by simpa using h.2 c hc⟩

theorem dropWhile_blank {blanks cs : List Char} (hblanks : ∀ c ∈ blanks, Text.isBlank c = true)
    (hcs : ∀ c, cs.head? = some c → Text.isBlank c = false) :
    (blanks ++ cs).dropWhile Text.isBlank = cs := by
  rw [List.dropWhile_append_of_pos hblanks]
  cases cs with
  | nil => rfl
  | cons c cs => rw [List.dropWhile_cons, hcs c rfl]; rfl

theorem trimChars_of_trimmed {before cs after : List Char}
    (hbefore : ∀ c ∈ before, Text.isBlank c = true) (hafter : ∀ c ∈ after, Text.isBlank c = true)
    (hcs : Trimmed cs) : Text.trimChars (before ++ (cs ++ after)) = cs := by
  cases cs with
  | nil =>
    have hall : ∀ c ∈ before ++ after, Text.isBlank c = true := by
      simpa only [List.forall_mem_append] using And.intro hbefore hafter
    rw [List.nil_append, Text.trimChars, List.dropWhile_eq_nil_iff.2 hall]
    rfl
  | cons c cs =>
    have hend : ((c :: cs) ++ after).reverse.dropWhile Text.isBlank = (c :: cs).reverse := by
      rw [List.reverse_append]
      refine dropWhile_blank (by simpa using hafter) fun d hd => hcs.2 d ?_
      rwa [List.head?_reverse] at hd
    have hstart : (before ++ (c :: cs ++ after)).dropWhile Text.isBlank = c :: cs ++ after :=
      dropWhile_blank hbefore hcs.1
    rw [Text.trimChars, hstart, hend, List.reverse_reverse]

/-- A line with a name and a value around its first colon, perhaps with white space around them. -/
structure HeaderLine where
  line : EndedLine
  name : String
  value : String
  spelled : ∃ a b c d : List Char, (∀ x ∈ a ++ b ++ c ++ d, Text.isBlank x = true) ∧
    line.text.toList = a ++ name.toList ++ b ++ ':' :: (c ++ value.toList ++ d)
  uncoloned : ':' ∉ name.toList
  trimmedName : Trimmed name.toList
  trimmedValue : Trimmed value.toList

def HeaderLine.header (h : HeaderLine) : String × String := (h.name, h.value)

theorem headerOf_headerLine (h : HeaderLine) : headerOf h.line.text = .ok h.header := by
  obtain ⟨a, b, c, d, hblank, hline⟩ := h.spelled
  simp only [List.forall_mem_append] at hblank
  obtain ⟨⟨⟨ha, hb⟩, hc⟩, hd⟩ := hblank
  have hblankColon : ∀ x, Text.isBlank x = true → (x != ':') = true := by
    intro x hx
    rw [bne_iff_ne]
    rintro rfl
    exact absurd hx (by decide)
  have hfront : ∀ x ∈ a ++ (h.name.toList ++ b), (x != ':') = true := by
    simp only [List.forall_mem_append]
    refine ⟨fun x hx => hblankColon x (ha x hx), fun x hx => ?_,
      fun x hx => hblankColon x (hb x hx)⟩
    rw [bne_iff_ne]
    rintro rfl
    exact h.uncoloned hx
  rw [List.append_assoc a, List.append_assoc c] at hline
  have hbefore : h.line.text.toList.takeWhile (· != ':') = a ++ (h.name.toList ++ b) := by
    rw [hline, List.takeWhile_append_of_pos hfront]
    simp
  have hbehind : (h.line.text.toList.dropWhile (· != ':')).drop 1 =
      c ++ (h.value.toList ++ d) := by
    rw [hline, List.dropWhile_append_of_pos hfront]
    simp
  have hcolon : h.line.text.toList.contains ':' = true := by
    rw [hline]
    simp
  rw [headerOf]
  simp only [if_pos hcolon, hbefore, hbehind, trimChars_of_trimmed ha hb h.trimmedName,
    trimChars_of_trimmed hc hd h.trimmedValue, String.ofList_toList]
  rfl

theorem HeaderLine.isEmpty_text (h : HeaderLine) : h.line.text.isEmpty = false := by
  obtain ⟨a, b, c, d, -, hline⟩ := h.spelled
  rw [Bool.eq_false_iff]
  intro hempty
  rw [String.isEmpty_iff.1 hempty] at hline
  simp at hline

/-! ## Heads -/

/-- A head as a peer may write it. -/
structure WireHead where
  start : StatusLine
  headers : List HeaderLine
  last : EndedLine
  few : headers.length ≤ maxHeaders
  blank : last.text = ""

namespace WireHead

def bytes (h : WireHead) : Bytes :=
  h.start.line.bytes ++ (h.headers.flatMap (·.line.bytes) ++ h.last.bytes)

/-- What is read of it. -/
def head (h : WireHead) : Head where
  status := h.start.status
  headers := h.headers.map HeaderLine.header

end WireHead

/-- The headers from a line that was read on. -/
def headersFrom (ending : StreamEnd) (room : Nat) (r : String × Bytes) :
    Except ResponseFault (List (String × String) × Bytes) :=
  if r.1.isEmpty then .ok ([], r.2)
  else match room with
    | 0 => .error .manyHeaders
    | room + 1 => do
      let h ← headerOf r.1
      (readHeaders ending room r.2).map fun more => (h :: more.1, more.2)

theorem readHeaders_eq (ending : StreamEnd) (room : Nat) (bytes : Bytes) :
    readHeaders ending room bytes = readLine ending bytes >>= headersFrom ending room := by
  unfold readHeaders
  cases readLine ending bytes with
  | error e => rfl
  | ok r =>
    rw [ok_bind]
    unfold headersFrom
    dsimp only
    split
    · rfl
    cases room with
    | zero => rfl
    | succ room => cases headerOf r.1 <;> rfl

theorem reads_headers (hs : List HeaderLine) {last : EndedLine} (hlast : last.text = "")
    {room : Nat} (hroom : hs.length ≤ room) :
    Reads (fun ending bytes => readHeaders ending room bytes)
      (hs.flatMap (·.line.bytes) ++ last.bytes) fun rest => (hs.map HeaderLine.header, rest) := by
  induction hs generalizing room with
  | nil =>
    have hend : Reads (fun ending bytes => headersFrom ending room (last.text, bytes)) []
        fun rest => ([], rest) :=
      (Reads.nothing _).of_eq fun ending bytes => by
        unfold headersFrom
        rw [hlast]
        rfl
    have hread := (reads_line last).bind hend
    rw [List.append_nil] at hread
    exact hread.of_eq fun ending bytes => readHeaders_eq ending room bytes
  | cons h hs ih =>
    obtain ⟨room, rfl⟩ : ∃ k, room = k + 1 := ⟨room - 1, by simp at hroom; omega⟩
    have hmore := (ih (Nat.le_of_succ_le_succ hroom)).map fun more => (h.header :: more.1, more.2)
    have hfrom : Reads (fun ending bytes => headersFrom ending (room + 1) (h.line.text, bytes))
        (hs.flatMap (·.line.bytes) ++ last.bytes)
        fun rest => ((h :: hs).map HeaderLine.header, rest) :=
      hmore.of_eq fun ending bytes => by
        unfold headersFrom
        rw [h.isEmpty_text, headerOf_headerLine]
        rfl
    rw [List.flatMap_cons, List.append_assoc]
    exact ((reads_line h.line).bind hfrom).of_eq fun ending bytes =>
      readHeaders_eq ending (room + 1) bytes

/-- The head from its first line on. -/
def headFrom (ending : StreamEnd) (r : String × Bytes) : Except ResponseFault (Head × Bytes) := do
  let status ← statusOf r.1
  (readHeaders ending maxHeaders r.2).map fun r => ({ status, headers := r.1 }, r.2)

theorem readAnyHead_eq (ending : StreamEnd) (bytes : Bytes) :
    readAnyHead ending bytes = readLine ending bytes >>= headFrom ending := by
  rw [readAnyHead]
  cases readLine ending bytes with
  | error e => rfl
  | ok r =>
    rw [ok_bind, headFrom]
    dsimp only
    cases statusOf r.1 <;> rfl

/-- A head whose first line is read as one that tells a status. -/
theorem reads_headFrom {start : Bytes} {line : String} {status : Nat}
    (hstart : Reads readLine start fun rest => (line, rest)) (hstatus : statusOf line = .ok status)
    {headers : List HeaderLine} (hfew : headers.length ≤ maxHeaders) {last : EndedLine}
    (hblank : last.text = "") :
    Reads readAnyHead (start ++ (headers.flatMap (·.line.bytes) ++ last.bytes))
      fun rest => ({ status, headers := headers.map HeaderLine.header }, rest) := by
  have hheaders := (reads_headers headers hblank hfew).map fun r =>
    ({ status, headers := r.1 : Head }, r.2)
  have hfrom : Reads (fun ending bytes => headFrom ending (line, bytes))
      (headers.flatMap (·.line.bytes) ++ last.bytes)
      fun rest => ({ status, headers := headers.map HeaderLine.header }, rest) :=
    hheaders.of_eq fun ending bytes => by
      rw [headFrom, hstatus]
      rfl
  exact (hstart.bind hfrom).of_eq readAnyHead_eq

theorem reads_anyHead (h : WireHead) : Reads readAnyHead h.bytes fun rest => (h.head, rest) :=
  reads_headFrom (reads_line h.start.line) (statusOf_statusLine h.start) h.few h.blank

/-- What a head is followed by: another one, if it is interim. -/
def headOrNext (ending : StreamEnd) (r : Head × Bytes) : Except ResponseFault (Head × Bytes) :=
  if isInterim r.1.status then readHead ending r.2 else .ok r

theorem readHead_eq (ending : StreamEnd) (bytes : Bytes) :
    readHead ending bytes = readAnyHead ending bytes >>= headOrNext ending := by
  rw [readHead]
  split <;> next h => rw [h]; rfl

theorem isInterim_iff {status : Nat} :
    isInterim status = true ↔ 100 ≤ status ∧ status < 200 ∧ status ≠ 101 := by
  simp [isInterim, and_assoc]

/-- A status of 101 is below 200 as those of interim heads are, but no head follows. -/
theorem isInterim_eq_false {status : Nat} (h : status = 101 ∨ 200 ≤ status) :
    isInterim status = false := by
  rw [Bool.eq_false_iff, Ne, isInterim_iff]
  omega

/-- Heads in any notation of which each is read to its end: the interim ones are passed over. -/
theorem reads_heads {η : Type} {bytes : η → Bytes} {head : η → Head}
    (hread : ∀ h, Reads readAnyHead (bytes h) fun rest => (head h, rest)) {interims : List η}
    {final : η} (hinterims : ∀ h ∈ interims, isInterim (head h).status = true)
    (hfinal : isInterim (head final).status = false) :
    Reads readHead (interims.flatMap bytes ++ bytes final) fun rest => (head final, rest) := by
  induction interims with
  | nil =>
    have hend : Reads (fun ending bytes => headOrNext ending (head final, bytes)) []
        fun rest => (head final, rest) :=
      (Reads.nothing _).of_eq fun ending bytes => if_neg (by simp [hfinal])
    have hlast := (hread final).bind hend
    rw [List.append_nil] at hlast
    exact hlast.of_eq readHead_eq
  | cons h interims ih =>
    obtain ⟨hinterim, hinterims⟩ := List.forall_mem_cons.1 hinterims
    have hnext : Reads (fun ending bytes => headOrNext ending (head h, bytes))
        (interims.flatMap bytes ++ bytes final) fun rest => (head final, rest) :=
      (ih hinterims).of_eq fun ending bytes => if_pos hinterim
    rw [List.flatMap_cons, List.append_assoc]
    exact ((hread h).bind hnext).of_eq readHead_eq

end NetProbe.Http
