import NetProbe.Proofs.Dns.Message
set_option autoImplicit false

/-! # Decoding by positions

A decoder that keeps the whole message and a position in it can look at a byte that is not there.
`ByPosition.decode` reads responses in this way, and says `Stop.outside` where it would. It never
does, and gives what `decodeResponse` gives (`ByPosition.decode_eq`): whatever the message, the
position stays within it, and the bytes from there on are those that are left to read. -/

namespace NetProbe.Dns.ByPosition

/-- Why a reading by positions stops: the message is at fault, or a byte was looked at that is not
    there. -/
inductive Stop where
  | error (e : MessageError)
  | outside
deriving DecidableEq, Repr

/-! ## Reading -/

/-- The byte at a position. -/
def byte (bytes : Bytes) (i : Nat) : Except Stop UInt8 :=
  match bytes[i]? with
  | some b => .ok b
  | none => .error .outside

/-- The first bytes, one by one. -/
def bytesUpTo (n : Nat) (bytes : Bytes) : Except Stop Bytes :=
  (List.range n).mapM (byte bytes)

/-- The bytes from one position up to another. -/
def slice (bytes : Bytes) (start stop : Nat) : Except Stop Bytes :=
  if start ≤ stop ∧ stop ≤ bytes.length then .ok ((bytes.drop start).take (stop - start))
  else .error .outside

/-- So many bytes and the position behind them. The check comes before the look. -/
def take (msg : Bytes) (n pos : Nat) : Except Stop (Bytes × Nat) :=
  if pos + n ≤ msg.length then do
    let bytes ← slice msg pos (pos + n)
    return (bytes, pos + n)
  else .error (.error .shortMessage)

/-- A number of so many bytes. -/
def takeNumber (msg : Bytes) (n pos : Nat) : Except Stop (Nat × Nat) := do
  let (bytes, pos) ← take msg n pos
  let digits ← bytesUpTo n bytes
  return (numberOfBytes digits, pos)

/-- The position behind a name of at most so many labels. -/
def skipName (msg : Bytes) : Nat → Nat → Except Stop Nat
  | 0, _ => .error (.error .nameTooLong)
  | n + 1, pos => do
    let (bytes, pos) ← take msg 1 pos
    let b ← byte bytes 0
    let length := b.toNat
    if length = 0 then return pos
    else if 0xc0 ≤ length then
      let (_, pos) ← take msg 1 pos
      return pos
    else if length < 0x40 then
      let (_, pos) ← take msg length pos
      skipName msg n pos
    else .error (.error .badLabel)

/-- The position behind so many questions. -/
def skipQuestions (msg : Bytes) : Nat → Nat → Except Stop Nat
  | 0, pos => .ok pos
  | n + 1, pos => do
    let pos ← skipName msg maxLabels pos
    let (_, pos) ← take msg 4 pos
    skipQuestions msg n pos

/-- The address that the data of a record spells. -/
def recordAddress (wanted type : RecordType) (data : Bytes) : Except Stop (Option Ip) :=
  if type = typeA ∧ wanted = typeA ∧ data.length = 4 then do
    let bytes ← bytesUpTo 4 data
    return some (.v4 (Ipv4.ofBytes bytes))
  else if type = typeAAAA ∧ wanted = typeAAAA ∧ data.length = 16 then do
    let bytes ← slice data 0 16
    return some (.v6 (Ipv6.ofBytes bytes))
  else return none

/-- The addresses of the wanted type in so many records. -/
def records (msg : Bytes) (wanted : RecordType) : Nat → Nat → Except Stop (List AddressRecord)
  | 0, _ => .ok []
  | n + 1, pos => do
    let pos ← skipName msg maxLabels pos
    let (type, pos) ← takeNumber msg 2 pos
    let (_, pos) ← takeNumber msg 2 pos
    let (ttl, pos) ← takeNumber msg 4 pos
    let (length, pos) ← takeNumber msg 2 pos
    let (data, pos) ← take msg length pos
    let address? ← recordAddress wanted (UInt16.ofNat type) data
    let more ← records msg wanted n pos
    match address? with
    | some address => return ⟨address, UInt32.ofNat ttl⟩ :: more
    | none => return more

/-- The addresses of the wanted type in a response. -/
def decode (msg : Bytes) (wanted : RecordType) : Except Stop (List AddressRecord) := do
  let (_, pos) ← takeNumber msg 2 0
  let (flags, pos) ← takeNumber msg 2 pos
  let (questions, pos) ← takeNumber msg 2 pos
  let (answers, pos) ← takeNumber msg 2 pos
  let (_, pos) ← takeNumber msg 2 pos
  let (_, pos) ← takeNumber msg 2 pos
  (checkFlags flags).mapError .error
  let pos ← skipQuestions msg questions pos
  let rs ← records msg wanted answers pos
  if rs.isEmpty then throw (.error .noAnswer)
  return rs

/-! ## Both readings at once -/

/-- What a reading by positions gives beside the one of the bytes that are left: the same fault of
    the message, or results that belong together. It does not look outside the message. -/
def Tracks {α β : Type} (R : α → β → Prop) (x : Except Stop α) (y : Except MessageError β) : Prop :=
  match y with
  | .error e => x = .error (.error e)
  | .ok b => ∃ a, R a b ∧ x = .ok a

/-- A position within the message, and the bytes from there on. -/
def At (msg : Bytes) (pos : Nat) (rest : Bytes) : Prop :=
  pos ≤ msg.length ∧ rest = msg.drop pos

/-- The same result, and positions that belong together. -/
def SameAt (msg : Bytes) {α : Type} (a : α × Nat) (b : α × Bytes) : Prop :=
  a.1 = b.1 ∧ At msg a.2 b.2

namespace Tracks

variable {α α' β β' : Type} {R : α → β → Prop} {R' : α' → β' → Prop} {x : Except Stop α}
  {y : Except MessageError β}

theorem bind {f : α → Except Stop α'} {g : β → Except MessageError β'} (h : Tracks R x y)
    (hf : ∀ a b, R a b → y = .ok b → Tracks R' (f a) (g b)) : Tracks R' (x >>= f) (y >>= g) := by
  cases y with
  | error e =>
    have hx : x = .error (.error e) := h
    rw [hx]
    exact rfl
  | ok b =>
    obtain ⟨a, hab, rfl⟩ := h
    exact hf a b hab rfl

theorem bindAt {msg : Bytes} {x : Except Stop (α × Nat)} {y : Except MessageError (α × Bytes)}
    {f : α × Nat → Except Stop α'} {g : α × Bytes → Except MessageError β'}
    (h : Tracks (SameAt msg) x y)
    (hf : ∀ a pos rest, At msg pos rest → Tracks R' (f (a, pos)) (g (a, rest))) :
    Tracks R' (x >>= f) (y >>= g) := by
  refine h.bind ?_
  rintro ⟨a, pos⟩ ⟨_, rest⟩ ⟨rfl, hat⟩ -
  exact hf a pos rest hat

theorem error (e : MessageError) : Tracks R (.error (.error e)) (.error e) := rfl

theorem ok {a : α} {b : β} (h : R a b) : Tracks R (.ok a) (.ok b) := ⟨a, h, rfl⟩

theorem eq_mapError {x : Except Stop α} {y : Except MessageError α} (h : Tracks Eq x y) :
    x = y.mapError .error := by
  cases y with
  | error e => exact h
  | ok b =>
    obtain ⟨a, rfl, rfl⟩ := h
    rfl

end Tracks

/-! ## Nothing outside the message is looked at -/

theorem bytesUpTo_length (bytes : Bytes) : bytesUpTo bytes.length bytes = .ok bytes := by
  have h : ∀ n ≤ bytes.length, (List.range n).mapM (byte bytes) = .ok (bytes.take n) := by
    intro n hn
    induction n with
    | zero => rfl
    | succ n ih =>
      have hget : byte bytes n = .ok bytes[n] := by
        rw [byte, List.getElem?_eq_getElem (by omega)]
      rw [List.range_succ, List.mapM_append, ih (by omega), List.take_succ_eq_append_getElem hn]
      simp [hget, bind, Except.bind, pure, Except.pure]
  rw [bytesUpTo, h _ (Nat.le_refl _), List.take_length]

variable {msg rest : Bytes} {pos : Nat}

theorem tracks_take (n : Nat) (h : At msg pos rest) :
    Tracks (SameAt msg) (take msg n pos) (Dns.take n rest) := by
  obtain ⟨hpos, rfl⟩ := h
  rw [take, Dns.take, List.length_drop]
  by_cases hn : pos + n ≤ msg.length
  · have hslice : slice msg pos (pos + n) = .ok ((msg.drop pos).take n) := by
      rw [slice, if_pos ⟨Nat.le_add_right _ _, hn⟩, Nat.add_sub_cancel_left]
    rw [if_pos hn, if_pos (by omega), hslice]
    refine .ok ⟨rfl, hn, ?_⟩
    rw [List.drop_drop]
  · rw [if_neg hn, if_neg (by omega)]
    exact .error _

theorem tracks_takeNumber (n : Nat) (h : At msg pos rest) :
    Tracks (SameAt msg) (takeNumber msg n pos) (Dns.takeNumber n rest) := by
  rw [takeNumber, takeNumber_eq]
  refine (tracks_take n h).bind ?_
  rintro ⟨bytes, pos⟩ ⟨_, rest⟩ ⟨rfl, hat⟩ htake
  have hall : bytesUpTo n bytes = .ok bytes := by
    have hbytes := bytesUpTo_length bytes
    rwa [length_of_take htake] at hbytes
  change Tracks _ (bytesUpTo n bytes >>= _) _
  rw [hall]
  exact .ok ⟨rfl, hat⟩

theorem tracks_skipName (n : Nat) (h : At msg pos rest) :
    Tracks (At msg) (skipName msg n pos) (Dns.skipName n rest) := by
  induction n generalizing pos rest with
  | zero =>
    rw [skipName_zero]
    exact .error _
  | succ n ih =>
    have hbyte := tracks_take 1 h
    rw [skipName]
    cases rest with
    | nil =>
      have hx : take msg 1 pos = .error (.error .shortMessage) := hbyte
      rw [hx]
      exact .error _
    | cons b rest =>
      obtain ⟨⟨bytes, pos'⟩, ⟨rfl, hat⟩, hx⟩ := hbyte
      rw [hx, skipName_cons]
      change At msg pos' rest at hat
      change Tracks (At msg) (if b.toNat = 0 then _ else _) _
      split
      · exact .ok hat
      split
      · exact (tracks_take 1 hat).bindAt fun _ _ _ hrest => .ok hrest
      split
      · exact (tracks_take b.toNat hat).bindAt fun _ _ _ hrest => ih hrest
      · exact .error _

theorem tracks_skipQuestions (n : Nat) (h : At msg pos rest) :
    Tracks (At msg) (skipQuestions msg n pos) (Dns.skipQuestions n rest) := by
  induction n generalizing pos rest with
  | zero => exact .ok h
  | succ n ih =>
    refine (tracks_skipName maxLabels h).bind fun pos rest hname _ => ?_
    exact (tracks_take 4 hname).bindAt fun _ _ _ hrest => ih hrest

theorem recordAddress_eq (wanted type : RecordType) (data : Bytes) :
    recordAddress wanted type data = .ok (Dns.recordAddress wanted type data) := by
  rw [recordAddress, Dns.recordAddress]
  split
  · next h =>
    have hall := bytesUpTo_length data
    rw [h.2.2] at hall
    rw [hall]
    rfl
  split
  · next h =>
    have hslice : slice data 0 16 = .ok data := by
      rw [slice, if_pos ⟨Nat.zero_le _, Nat.le_of_eq h.2.2.symm⟩, ← h.2.2]
      simp
    rw [hslice]
    rfl
  · rfl

theorem tracks_records (wanted : RecordType) (n : Nat) (h : At msg pos rest) :
    Tracks Eq (records msg wanted n pos) (readRecords wanted n rest) := by
  induction n generalizing pos rest with
  | zero => exact .ok rfl
  | succ n ih =>
    rw [records, readRecords]
    refine (tracks_skipName maxLabels h).bind fun _ _ hname _ => ?_
    refine (tracks_takeNumber 2 hname).bindAt fun type _ _ htype => ?_
    refine (tracks_takeNumber 2 htype).bindAt fun _ _ _ hclass => ?_
    refine (tracks_takeNumber 4 hclass).bindAt fun ttl _ _ httl => ?_
    refine (tracks_takeNumber 2 httl).bindAt fun length _ _ hlength => ?_
    refine (tracks_take length hlength).bindAt fun data _ _ hdata => ?_
    dsimp only
    rw [recordAddress_eq]
    refine (ih hdata).bind ?_
    rintro more _ rfl -
    cases Dns.recordAddress wanted (UInt16.ofNat type) data <;> exact .ok rfl

theorem tracks_checkFlags (flags : Nat) :
    Tracks Eq ((checkFlags flags).mapError .error) (checkFlags flags) := by
  cases checkFlags flags with
  | error e => exact .error e
  | ok u => exact .ok rfl

/-- Reading by positions gives what `decodeResponse` gives, and so never looks outside the
    message. -/
theorem decode_eq (msg : Bytes) (wanted : RecordType) :
    decode msg wanted = (decodeResponse msg wanted).mapError .error := by
  apply Tracks.eq_mapError
  have hstart : At msg 0 msg := ⟨Nat.zero_le _, rfl⟩
  refine (tracks_takeNumber 2 hstart).bindAt fun _ _ _ hid => ?_
  refine (tracks_takeNumber 2 hid).bindAt fun flags _ _ hflags => ?_
  refine (tracks_takeNumber 2 hflags).bindAt fun questions _ _ hquestions => ?_
  refine (tracks_takeNumber 2 hquestions).bindAt fun answers _ _ hanswers => ?_
  refine (tracks_takeNumber 2 hanswers).bindAt fun _ _ _ hauthorities => ?_
  refine (tracks_takeNumber 2 hauthorities).bindAt fun _ _ _ hheader => ?_
  refine (tracks_checkFlags flags).bind fun _ _ _ _ => ?_
  refine (tracks_skipQuestions questions hheader).bind fun _ _ hskipped _ => ?_
  refine (tracks_records wanted answers hskipped).bind ?_
  rintro rs _ rfl -
  cases rs with
  | nil => exact .error _
  | cons r rs => exact .ok rfl

end NetProbe.Dns.ByPosition
