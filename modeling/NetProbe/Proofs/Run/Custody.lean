import Mathlib.Data.Multiset.Filter
import Mathlib.Data.Multiset.OrderedMonoid
import NetProbe.Proofs.Run.Deeds
set_option autoImplicit false

/-! # Custody of streams

An established stream is in one slot, or in the hands of the operation that established it or took
it out of a slot, or a failed handshake was the end of it. Whoever knows of a slot and of what it
holds has a `Token` of that, and deeds trade tokens: `Moves A ds B` says that the deeds, begun with
the tokens `A`, leave the tokens `B`, whatever tokens others have. So deeds of several parties may
take turns (`Moves.shuffle`): none has the tokens of another one.

Tokens that agree with a session go on doing so, `Custody`; every stream has one owner as long as
they do. What is taken out of a full slot is a stream. -/

namespace NetProbe

/-! ## Where streams are -/

/-- The number of the stream in a slot. -/
def Slot.number? : Slot Stream → Option Nat
  | .open stream => some stream.number
  | _ => none

/-- The numbers of the streams in slots. -/
def streamsIn (slots : List (Slot Stream)) : Multiset Nat :=
  ↑(slots.filterMap Slot.number?)

section StreamsIn

variable {slots : List (Slot Stream)} {id : SlotId} {stream : Stream}

theorem streamsIn_append_open :
    streamsIn (slots ++ [.open stream]) = stream.number ::ₘ streamsIn slots := by
  rw [streamsIn, List.filterMap_append, ← Multiset.coe_add, add_comm]
  rfl

/-- The streams in slots, one slot apart. -/
theorem exists_streamsIn_set (hid : id < slots.length) :
    ∃ rest : Multiset Nat, streamsIn slots = ↑slots[id].number?.toList + rest ∧
      ∀ x : Slot Stream, streamsIn (slots.set id x) = ↑x.number?.toList + rest := by
  have hsplit (before after : List (Slot Stream)) (x : Slot Stream) :
      streamsIn (before ++ x :: after)
        = ↑x.number?.toList + (streamsIn before + streamsIn after) := by
    rw [streamsIn, List.filterMap_append, ← Multiset.coe_add]
    cases hx : x.number? with
    | none =>
      rw [List.filterMap_cons_none hx]
      exact (zero_add _).symm
    | some n =>
      rw [List.filterMap_cons_some hx, ← Multiset.cons_coe, Multiset.add_cons]
      exact (Multiset.singleton_add n _).symm
  refine ⟨streamsIn (slots.take id) + streamsIn (slots.drop (id + 1)), ?_, fun x => ?_⟩
  · rw [← hsplit, List.getElem_cons_drop, List.take_append_drop]
  · rw [← hsplit, List.set_eq_take_cons_drop x hid]

theorem streamsIn_set_taken (h : slots[id]? = some (.open stream)) :
    stream.number ::ₘ streamsIn (slots.set id .taken) = streamsIn slots := by
  obtain ⟨hid, hopen⟩ := List.getElem?_eq_some_iff.1 h
  obtain ⟨rest, hbefore, hafter⟩ := exists_streamsIn_set hid
  rw [hbefore, hafter, hopen]
  exact congrArg _ (zero_add rest)

theorem streamsIn_set_open (h : slots[id]? = some .taken) :
    streamsIn (slots.set id (.open stream)) = stream.number ::ₘ streamsIn slots := by
  obtain ⟨hid, htaken⟩ := List.getElem?_eq_some_iff.1 h
  obtain ⟨rest, hbefore, hafter⟩ := exists_streamsIn_set hid
  rw [hbefore, hafter, htaken]
  exact congrArg _ (zero_add rest).symm

end StreamsIn

/-- The numbers of the streams that are in no slot. -/
structure Unslotted where
  /-- Those that operations have in hand. -/
  inHand : Multiset Nat := 0
  /-- Those that are no more. -/
  lost : Multiset Nat := 0

namespace Unslotted

/-- Which streams are in no slot after a deed. -/
def after (w : Unslotted) : Deed → Unslotted
  | .established stream | .took _ (some stream) =>
    { w with inHand := stream.number ::ₘ w.inHand }
  | .held stream _ | .restored _ stream => { w with inHand := w.inHand.erase stream.number }
  | .lost stream =>
    { inHand := w.inHand.erase stream.number, lost := stream.number ::ₘ w.lost }
  | _ => w

/-- Which streams are in no slot after some deeds of a fresh session. -/
def of (ds : List Deed) : Unslotted :=
  ds.foldl after {}

end Unslotted

/-- Every stream that was established is at one place. -/
def OwnedOnce (slots : List (Slot Stream)) (streams : Nat) (w : Unslotted) : Prop :=
  streamsIn slots + w.inHand + w.lost = ↑(List.range' 1 streams)

/-! ## Tokens -/

/-- What somebody knows who need not fear that others change it. -/
inductive Token where
  /-- The slot has its stream in it. -/
  | full (id : SlotId)
  /-- The stream of the slot is in hand. -/
  | empty (id : SlotId)
  /-- The stream is in hand. -/
  | hand (number : Nat)

namespace Token

def slot? : Token → Option SlotId
  | full id | empty id => some id
  | hand _ => none

def number? : Token → Option Nat
  | hand number => some number
  | _ => none

end Token

/-- The slots that somebody has tokens of. -/
def slotsOf (T : Multiset Token) : Multiset SlotId := T.filterMap Token.slot?

/-- The streams that somebody has in hand. -/
def handsOf (T : Multiset Token) : Multiset Nat := T.filterMap Token.number?

section Tokens

variable (id : SlotId) (n : Nat) (T U : Multiset Token)

theorem slotsOf_add : slotsOf (T + U) = slotsOf T + slotsOf U :=
  Multiset.filterMap_add _ _ _

theorem handsOf_add : handsOf (T + U) = handsOf T + handsOf U :=
  Multiset.filterMap_add _ _ _

@[simp] theorem slotsOf_full : slotsOf (.full id ::ₘ T) = id ::ₘ slotsOf T :=
  Multiset.filterMap_cons_some _ _ _ rfl

@[simp] theorem slotsOf_empty : slotsOf (.empty id ::ₘ T) = id ::ₘ slotsOf T :=
  Multiset.filterMap_cons_some _ _ _ rfl

@[simp] theorem slotsOf_hand : slotsOf (.hand n ::ₘ T) = slotsOf T :=
  Multiset.filterMap_cons_none _ _ rfl

@[simp] theorem handsOf_full : handsOf (.full id ::ₘ T) = handsOf T :=
  Multiset.filterMap_cons_none _ _ rfl

@[simp] theorem handsOf_empty : handsOf (.empty id ::ₘ T) = handsOf T :=
  Multiset.filterMap_cons_none _ _ rfl

@[simp] theorem handsOf_hand : handsOf (.hand n ::ₘ T) = n ::ₘ handsOf T :=
  Multiset.filterMap_cons_some _ _ _ rfl

end Tokens

open Token

/-- A deed takes tokens and gives others. -/
inductive Deed.Trades : Deed → Multiset Token → Multiset Token → Prop
  | traced (trace : TraceId) : Trades (.traced trace) 0 0
  | saved (o : Observations) : Trades (.saved o) 0 0
  | established (stream : Stream) : Trades (.established stream) 0 {hand stream.number}
  | held (stream : Stream) (id : SlotId) :
      Trades (.held stream id) {hand stream.number} {full id}
  | took (id : SlotId) (stream : Stream) :
      Trades (.took id (some stream)) {full id} ({empty id} + {hand stream.number})
  /-- This does not happen: the slot is full. -/
  | tookNothing (id : SlotId) (B : Multiset Token) : Trades (.took id none) {full id} B
  | restored (id : SlotId) (stream : Stream) :
      Trades (.restored id stream) ({empty id} + {hand stream.number}) {full id}
  | lost (stream : Stream) : Trades (.lost stream) {hand stream.number} 0

/-- Deeds that start with some tokens and leave others; slots may be forgotten in the end, but not
    what is in hand. -/
inductive Moves : Multiset Token → List Deed → Multiset Token → Prop
  | done {A B L : Multiset Token} :
      A = B + L → (∀ t ∈ L, t.number? = none) → Moves A [] B
  | step {d : Deed} {ds : List Deed} {T A B F C : Multiset Token} :
      d.Trades A B → T = A + F → Moves (B + F) ds C → Moves T (d :: ds) C

namespace Moves

variable {A B C L A₁ A₂ B₁ B₂ : Multiset Token} {ds es fs : List Deed}

theorem refl (A : Multiset Token) : Moves A [] A :=
  .done (add_zero A).symm fun _ ht => absurd ht (Multiset.notMem_zero _)

theorem step' {d : Deed} (hd : d.Trades A B) (h : Moves B ds C) : Moves A (d :: ds) C :=
  .step hd (add_zero A).symm (by rwa [add_zero])

/-- Tokens that others have make no difference. -/
theorem frame (h : Moves A ds B) (F : Multiset Token) : Moves (A + F) ds (B + F) := by
  induction h with
  | done hA hL => exact .done (by rw [hA, add_right_comm]) hL
  | step hd hT _ ih =>
    rw [add_assoc] at ih
    exact .step hd (by rw [hT, add_assoc]) ih

theorem forget (h : Moves A ds (B + L)) (hL : ∀ t ∈ L, t.number? = none) : Moves A ds B := by
  generalize hC : B + L = C at h
  induction h with
  | done hA hL' =>
    subst hC
    refine .done (hA.trans (add_assoc _ _ _)) fun t ht => ?_
    exact (Multiset.mem_add.1 ht).elim (hL t) (hL' t)
  | step hd hT _ ih => exact .step hd hT (ih hC)

theorem trans (h : Moves A ds B) (h' : Moves B es C) : Moves A (ds ++ es) C := by
  induction h with
  | done hA hL =>
    -- What is forgotten here is there until the end, and is forgotten then.
    rw [hA, List.nil_append]
    exact (h'.frame _).forget hL
  | step hd hT _ ih => exact .step hd hT (ih h')

/-- Two parties take turns, each with its own tokens. -/
theorem shuffle (h₁ : Moves A₁ ds B₁) (h₂ : Moves A₂ es B₂) (hs : Shuffle ds es fs) :
    Moves (A₁ + A₂) fs (B₁ + B₂) := by
  -- The deed that comes first takes its party's tokens, and the other party's are left over.
  induction hs generalizing A₁ A₂ with
  | nil =>
    have h := (h₁.frame A₂).trans ((add_comm A₂ B₁ ▸ h₂.frame B₁ : Moves (B₁ + A₂) [] (B₂ + B₁)))
    rwa [add_comm B₁]
  | left _ ih =>
    cases h₁ with
    | @step _ _ _ A B F _ hd hT hrest =>
      have hgo := ih hrest h₂
      rw [add_assoc] at hgo
      exact .step hd (by rw [hT, add_assoc]) hgo
  | right _ ih =>
    cases h₂ with
    | @step _ _ _ A B F _ hd hT hrest =>
      have hgo := ih h₁ hrest
      rw [add_left_comm] at hgo
      exact .step hd (by rw [hT, add_left_comm]) hgo

/-- Parties that start without tokens and leave none. -/
theorem interleaves {dss : List (List Deed)} (h : ∀ ds ∈ dss, Moves 0 ds 0)
    (hi : Interleaves dss fs) : Moves 0 fs 0 := by
  induction hi with
  | nil => exact .refl 0
  | cons _ hs ih =>
    have hgo := (h _ List.mem_cons_self).shuffle
      (ih fun ds hds => h ds (List.mem_cons_of_mem _ hds)) hs
    rwa [add_zero] at hgo

end Moves

/-! ## Sessions -/

/-- Whether the token is right about the slots. -/
def Token.Agrees (slots : List (Slot Stream)) : Token → Prop
  | full id => ∃ stream, slots[id]? = some (.open stream)
  | empty id => slots[id]? = some .taken
  | hand _ => True

namespace Token.Agrees

variable {slots : List (Slot Stream)} {t : Token} {id : SlotId}

theorem lt (h : t.Agrees slots) (ht : t.slot? = some id) : id < slots.length := by
  cases t with
  | full i =>
    obtain rfl := Option.some.inj ht
    obtain ⟨_, hopen⟩ := h
    exact (List.getElem?_eq_some_iff.1 hopen).1
  | empty i =>
    obtain rfl := Option.some.inj ht
    exact (List.getElem?_eq_some_iff.1 h).1
  | hand n => cases ht

theorem append (h : t.Agrees slots) (more : List (Slot Stream)) : t.Agrees (slots ++ more) := by
  cases t with
  | full i =>
    obtain ⟨stream, hopen⟩ := h
    exact ⟨stream, by rw [List.getElem?_append_left (List.getElem?_eq_some_iff.1 hopen).1, hopen]⟩
  | empty i => exact (List.getElem?_append_left (List.getElem?_eq_some_iff.1 h).1).trans h
  | hand n => trivial

/-- What becomes of another slot is of no interest. -/
theorem set (h : t.Agrees slots) (ht : t.slot? ≠ some id) (x : Slot Stream) :
    t.Agrees (slots.set id x) := by
  cases t with
  | full i =>
    have hne : id ≠ i := fun hid => ht (congrArg some hid.symm)
    exact h.imp fun stream hopen => (List.getElem?_set_ne hne).trans hopen
  | empty i =>
    have hne : id ≠ i := fun hid => ht (congrArg some hid.symm)
    exact (List.getElem?_set_ne hne).trans h
  | hand n => trivial

end Token.Agrees

/-- The tokens agree with a session in which every stream has one owner. -/
structure Custody (slots : List (Slot Stream)) (streams : Nat) (w : Unslotted)
    (T : Multiset Token) : Prop where
  agrees : ∀ t ∈ T, t.Agrees slots
  /-- Nobody else has a token of the same slot. -/
  nodup : (slotsOf T).Nodup
  inHand : w.inHand = handsOf T
  ownedOnce : OwnedOnce slots streams w

namespace Custody

variable {slots : List (Slot Stream)} {streams : Nat} {w : Unslotted} {T F : Multiset Token}
  {id : SlotId} {stream : Stream}

/-- A fresh session, and nobody who has anything. -/
theorem fresh : Custody [] 0 {} 0 where
  agrees _ ht := absurd ht (Multiset.notMem_zero _)
  nodup := Multiset.nodup_zero
  inHand := rfl
  ownedOnce := rfl

/-- Slots that somebody has a token of are there. -/
theorem lt_of_mem (h : Custody slots streams w T) (hid : id ∈ slotsOf T) : id < slots.length := by
  obtain ⟨t, ht, hslot⟩ := (Multiset.mem_filterMap _ _).1 hid
  exact (h.agrees t ht).lt hslot

/-- What becomes of a slot does not matter to those who have no token of it. -/
theorem agrees_set {t t' : Token} (h : Custody slots streams w (t' ::ₘ F))
    (ht' : t'.slot? = some id) (ht : t ∈ F) {x : Slot Stream} : t.Agrees (slots.set id x) := by
  refine (h.agrees t (Multiset.mem_cons_of_mem ht)).set (fun hslot => ?_) x
  have hnodup := h.nodup
  rw [slotsOf, Multiset.filterMap_cons_some _ _ _ ht', Multiset.nodup_cons] at hnodup
  exact hnodup.1 ((Multiset.mem_filterMap _ _).2 ⟨t, ht, hslot⟩)

theorem establish (h : Custody slots streams w F) (hnumber : stream.number = streams + 1) :
    Custody slots (streams + 1) (w.after (.established stream)) (hand stream.number ::ₘ F) where
  agrees := Multiset.forall_mem_cons.2 ⟨trivial, h.agrees⟩
  nodup := by rw [slotsOf_hand]; exact h.nodup
  inHand := by simp [Unslotted.after, h.inHand]
  ownedOnce := by
    have howned : _ = _ := h.ownedOnce
    have hlast : (↑(List.range' 1 (streams + 1)) : Multiset Nat)
        = (streams + 1) ::ₘ ↑(List.range' 1 streams) := by
      rw [List.range'_concat, ← Multiset.coe_add, add_comm, Nat.one_mul, Nat.add_comm 1]
      rfl
    rw [OwnedOnce, hlast, ← howned]
    simp [Unslotted.after, hnumber]

theorem hold (h : Custody slots streams w (hand stream.number ::ₘ F)) :
    Custody (slots ++ [.open stream]) streams (w.after (.held stream slots.length))
      (full slots.length ::ₘ F) where
  agrees := by
    obtain ⟨-, hF⟩ := Multiset.forall_mem_cons.1 h.agrees
    exact Multiset.forall_mem_cons.2 ⟨⟨stream, by simp⟩, fun t ht => (hF t ht).append _⟩
  nodup := by
    have hnodup := h.nodup
    rw [slotsOf_hand] at hnodup
    rw [slotsOf_full]
    refine Multiset.nodup_cons.2 ⟨fun hmem => ?_, hnodup⟩
    exact absurd (h.lt_of_mem ((slotsOf_hand _ F).symm ▸ hmem)) (Nat.lt_irrefl _)
  inHand := by simp [Unslotted.after, h.inHand]
  ownedOnce := by
    have howned : _ = _ := h.ownedOnce
    rw [OwnedOnce, ← howned, streamsIn_append_open]
    simp [Unslotted.after, h.inHand]

theorem take (h : Custody slots streams w (full id ::ₘ F))
    (hopen : slots[id]? = some (.open stream)) :
    Custody (slots.set id .taken) streams (w.after (.took id (some stream)))
      (empty id ::ₘ hand stream.number ::ₘ F) where
  agrees := by
    obtain ⟨hid, -⟩ := List.getElem?_eq_some_iff.1 hopen
    refine Multiset.forall_mem_cons.2 ⟨List.getElem?_set_self hid, ?_⟩
    exact Multiset.forall_mem_cons.2 ⟨trivial, fun t ht => h.agrees_set rfl ht⟩
  nodup := by simpa using h.nodup
  inHand := by simp [Unslotted.after, h.inHand]
  ownedOnce := by
    have howned : _ = _ := h.ownedOnce
    rw [OwnedOnce, ← howned, ← streamsIn_set_taken hopen]
    simp [Unslotted.after]

theorem restore (h : Custody slots streams w (empty id ::ₘ hand stream.number ::ₘ F)) :
    Custody (slots.set id (.open stream)) streams (w.after (.restored id stream))
      (full id ::ₘ F) where
  agrees := by
    obtain ⟨htaken, -⟩ := Multiset.forall_mem_cons.1 h.agrees
    obtain ⟨hid, -⟩ := List.getElem?_eq_some_iff.1 htaken
    refine Multiset.forall_mem_cons.2 ⟨⟨stream, List.getElem?_set_self hid⟩, fun t ht => ?_⟩
    exact h.agrees_set rfl (Multiset.mem_cons_of_mem ht)
  nodup := by simpa using h.nodup
  inHand := by simp [Unslotted.after, h.inHand]
  ownedOnce := by
    obtain ⟨htaken, -⟩ := Multiset.forall_mem_cons.1 h.agrees
    have howned : _ = _ := h.ownedOnce
    rw [OwnedOnce, ← howned, streamsIn_set_open htaken]
    simp [Unslotted.after, h.inHand]

theorem lose (h : Custody slots streams w (hand stream.number ::ₘ F)) :
    Custody slots streams (w.after (.lost stream)) F where
  agrees := (Multiset.forall_mem_cons.1 h.agrees).2
  nodup := by simpa using h.nodup
  inHand := by simp [Unslotted.after, h.inHand]
  ownedOnce := by
    have howned : _ = _ := h.ownedOnce
    rw [OwnedOnce, ← howned]
    simp [Unslotted.after, h.inHand]

end Custody

/-! ## Deeds and histories -/

/-- A deed keeps custody if it trades tokens that are there, and finds the stream that it takes. -/
theorem Custody.deed {σ : Session} {w : Unslotted} {A B F : Multiset Token} {d : Deed}
    (h : Custody σ.slots σ.streams w (A + F)) (hd : d.Trades A B) (hfits : d.Fits σ) :
    Custody (d.after σ).slots (d.after σ).streams (w.after d) (B + F) ∧
      ∀ id, d ≠ .took id none := by
  cases hd with
  | traced trace => exact ⟨h, fun _ h => by cases h⟩
  | saved o => exact ⟨h, fun _ h => by cases h⟩
  | established stream =>
    rw [zero_add] at h
    exact ⟨h.establish hfits, fun _ h => by cases h⟩
  | held stream id =>
    obtain rfl : id = σ.slots.length := hfits
    exact ⟨h.hold, fun _ h => by cases h⟩
  | took id stream =>
    obtain ⟨content, hopen⟩ := h.agrees (full id) (Multiset.mem_cons_self _ _)
    obtain rfl : stream = content := by
      simpa [Deed.Fits, Session.take, Session.slot?, hopen, Slot.take] using hfits
    have hafter : Deed.after σ (.took id (some stream)) = σ.setSlot id .taken := by
      simp [Deed.after, Session.take, Session.slot?, hopen, Slot.take]
    rw [hafter, add_assoc, Multiset.singleton_add, Multiset.singleton_add]
    exact ⟨h.take hopen, fun _ h => by cases h⟩
  | tookNothing id =>
    -- The token says that there is a stream in the slot, but the answer says that there is none.
    obtain ⟨content, hopen⟩ := h.agrees (full id) (Multiset.mem_cons_self _ _)
    simp [Deed.Fits, Session.take, Session.slot?, hopen, Slot.take] at hfits
  | restored id stream =>
    rw [add_assoc, Multiset.singleton_add, Multiset.singleton_add] at h
    have htaken : σ.slots[id]? = some .taken := h.agrees (empty id) (Multiset.mem_cons_self _ _)
    have hafter : Deed.after σ (.restored id stream) = σ.setSlot id (.open stream) := by
      simp [Deed.after, Session.restore, Session.slot?, htaken, Slot.restore]
    rw [hafter]
    exact ⟨h.restore, fun _ h => by cases h⟩
  | lost stream =>
    rw [zero_add]
    exact ⟨h.lose, fun _ h => by cases h⟩

/-- What is not in hand may be forgotten. -/
theorem Custody.forget {slots : List (Slot Stream)} {streams : Nat} {w : Unslotted}
    {T L : Multiset Token} (h : Custody slots streams w (T + L)) (hL : ∀ t ∈ L, t.number? = none) :
    Custody slots streams w T where
  agrees t ht := h.agrees t (Multiset.mem_add.2 (.inl ht))
  nodup := by
    have hnodup := h.nodup
    rw [slotsOf_add] at hnodup
    exact (Multiset.nodup_add.1 hnodup).1
  inHand := by
    have hnone : handsOf L = 0 := by
      refine Multiset.eq_zero_of_forall_notMem fun n hn => ?_
      obtain ⟨t, ht, hnumber⟩ := (Multiset.mem_filterMap _ _).1 hn
      exact absurd ((hL t ht).symm.trans hnumber) nofun
    have hinHand := h.inHand
    rwa [handsOf_add, hnone, add_zero] at hinHand
  ownedOnce := h.ownedOnce

namespace Moves

variable {A B : Multiset Token}

/-- Tokens that agree with a session agree with it after a history, and no stream is looked for in
    vain. -/
theorem custody {σ : Session} {w : Unslotted} {h : List Action} (hmoves : Moves A (deeds h) B)
    (hc : Custody σ.slots σ.streams w A) (hgives : σ.Gives h) :
    Custody (σ.after h).slots (σ.after h).streams ((deeds h).foldl Unslotted.after w) B ∧
      ∀ id, .took id none ∉ deeds h := by
  -- An action without a deed leaves slots as they are; a deed trades tokens and keeps custody.
  induction h generalizing σ w A with
  | nil =>
    cases hmoves with
    | done hA hL => exact ⟨(hA ▸ hc).forget hL, fun _ h => absurd h List.not_mem_nil⟩
  | cons a h ih =>
    obtain ⟨hfits, hgives⟩ := Session.gives_cons.1 hgives
    rw [Session.after_cons]
    rcases a.quiet_or_deed σ with ⟨hd, log, hafter⟩ | ⟨d, hd, hafter, hdfits⟩
    · rw [deeds_cons_none hd] at hmoves ⊢
      exact ih hmoves (hafter ▸ hc) hgives
    · rw [deeds_cons_some hd] at hmoves ⊢
      cases hmoves with
      | step htrades hA hrest =>
        obtain ⟨hstep, hne⟩ := (hA ▸ hc).deed htrades (hdfits hfits)
        obtain ⟨hcustody, htook⟩ := ih hrest (hafter ▸ hstep) hgives
        refine ⟨hcustody, fun id hmem => ?_⟩
        exact (List.mem_cons.1 hmem).elim (fun hd => hne id hd.symm) (htook id)

/-- The first deeds of some. -/
theorem exists_prefix {ds es : List Deed} (h : Moves A (ds ++ es) B) : ∃ C, Moves A ds C := by
  induction ds generalizing A with
  | nil => exact ⟨A, .refl A⟩
  | cons d ds ih =>
    cases h with
    | step hd hT hrest =>
      obtain ⟨C, hC⟩ := ih hrest
      exact ⟨C, .step hd hT hC⟩

end Moves

end NetProbe
