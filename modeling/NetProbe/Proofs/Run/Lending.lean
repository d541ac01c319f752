import Mathlib.Data.Multiset.OrderedMonoid
import NetProbe.Proofs.Run.Sequence
import NetProbe.Run.Session
set_option autoImplicit false

/-! # A slot and its clients

Any number of clients share a slot. Each of them may ask for the content at any time; who has got it
may put it back or drop it; and at any time somebody may close the slot. Calls of a slot do not
overlap, so what happens is a sequence of them in some order: `Lending.Step` is one of them.

Steps move things between the slot, the hands of clients and the dropped ones, and neither make nor
lose any (`Step.places`). So the one thing that a slot started with is at one of these places
(`SoleOwner`): nobody gets it while another client has it, nothing is put on top of it, and once the
slot was closed nobody gets it any more, and it is dropped when it comes back. -/

namespace NetProbe

/-! ## What a slot owns -/

namespace Slot

variable {σ : Type}

def contents : Slot σ → List σ
  | .open s => [s]
  | .taken | .closed => []

/-- What is dropped when something is put into a slot: what it is put on top of, or, if the slot is
    closed, it. -/
def spilled (s : σ) : Slot σ → List σ
  | .open t => [t]
  | .taken => []
  | .closed => [s]

/-- Taking and putting back neither makes nor loses anything. -/
theorem take_contents (slot : Slot σ) :
    (slot.take.2.contents + slot.take.1.toList : Multiset σ) = slot.contents := by
  cases slot <;> rfl

theorem restore_contents (s : σ) (slot : Slot σ) :
    ((slot.restore s).2.contents + slot.spilled s : Multiset σ) = s ::ₘ slot.contents := by
  cases slot <;> rfl

theorem close_contents (slot : Slot σ) : slot.close.contents = [] := rfl

/-- Nothing is taken out of a slot that owns nothing. -/
theorem take_of_contents {slot : Slot σ} (h : slot.contents = []) : slot.take = (none, slot) := by
  cases slot with
  | «open» s => cases h
  | taken => rfl
  | closed => rfl

/-- A closed slot does not keep what is put in, every other one does. -/
theorem restore_cases (s : σ) (slot : Slot σ) :
    (slot = .closed ∧ slot.restore s = (false, .closed)) ∨ slot.restore s = (true, .open s) := by
  cases slot with
  | closed => exact .inl ⟨rfl, rfl⟩
  | _ => exact .inr rfl

end Slot

/-! ## Steps -/

/-- A slot, what was taken out of it, each with the number of the client who has it, and what was
    dropped. -/
structure Lending (σ : Type) where
  slot : Slot σ
  loans : List (Nat × σ) := []
  dropped : List σ := []

namespace Lending

variable {σ : Type}

/-- A slot that nobody has asked for its content. -/
def start (content : σ) : Lending σ where
  slot := .open content

inductive Event (σ : Type) where
  /-- A client asked for the content and got it, or nothing. -/
  | took (client : Nat) (content : Option σ)
  /-- A client put back what it had; whether the slot keeps it. -/
  | restored (client : Nat) (content : σ) (kept : Bool)
  /-- A client dropped what it had. -/
  | released (client : Nat) (content : σ)
  | closed

/-- What can happen in one step, whoever has a turn. -/
inductive Step (s : Lending σ) : Event σ → Lending σ → Prop
  | take (client : Nat) : Step s (.took client s.slot.take.1) { s with
      slot := s.slot.take.2
      loans := s.loans ++ s.slot.take.1.toList.map (Prod.mk client) }
  | restore {client : Nat} {content : σ} {before after : List (Nat × σ)}
    (held : s.loans = before ++ (client, content) :: after) :
    Step s (.restored client content (s.slot.restore content).1) {
      slot := (s.slot.restore content).2
      loans := before ++ after
      dropped := s.dropped ++ s.slot.spilled content }
  | release {client : Nat} {content : σ} {before after : List (Nat × σ)}
    (held : s.loans = before ++ (client, content) :: after) :
    Step s (.released client content) { s with
      loans := before ++ after
      dropped := s.dropped ++ [content] }
  | close : Step s .closed { s with
      slot := s.slot.close
      dropped := s.dropped ++ s.slot.contents }

/-! ## Nothing is made or lost -/

/-- Everything that the slot owns, that clients have and that was dropped. -/
def places (s : Lending σ) : Multiset σ :=
  s.slot.contents + s.loans.map Prod.snd + s.dropped

variable {content x : σ} {client : Nat} {s t : Lending σ} {e : Event σ} {h : List (Event σ)}
  {before after : List (Nat × σ)}

/-- What all clients have is what one of them has and what the others have. -/
theorem loans_of_held (held : s.loans = before ++ (client, x) :: after) :
    (s.loans.map Prod.snd : Multiset σ) = x ::ₘ (before ++ after).map Prod.snd := by
  rw [held, ← Multiset.map_coe, ← Multiset.map_coe, ← Multiset.coe_add, ← Multiset.coe_add,
    ← Multiset.cons_coe, Multiset.add_cons, Multiset.map_cons]

/-- Whatever happens moves things from one place to another one. -/
theorem Step.places (hstep : Step s e t) : t.places = s.places := by
  cases hstep with
  | take client =>
    have hloans : (s.loans ++ s.slot.take.1.toList.map (Prod.mk client)).map Prod.snd =
        s.loans.map Prod.snd ++ s.slot.take.1.toList := by
      simp [Function.comp_def]
    rw [Lending.places, Lending.places, hloans, ← s.slot.take_contents, ← Multiset.coe_add,
      ← add_assoc, add_right_comm (_ : Multiset σ) _ (s.loans.map Prod.snd : Multiset σ)]
  | @restore client x before after held =>
    rw [Lending.places, Lending.places, loans_of_held held, Multiset.add_cons, ← Multiset.cons_add,
      ← s.slot.restore_contents x, ← Multiset.coe_add]
    ac_rfl
  | @release client x before after held =>
    rw [Lending.places, Lending.places, loans_of_held held, ← Multiset.coe_add,
      ← Multiset.singleton_add]
    change _ + (_ + {x}) = _
    ac_rfl
  | close =>
    rw [Lending.places, Lending.places, s.slot.close_contents, ← Multiset.coe_add]
    change 0 + _ + _ = _
    rw [zero_add]
    ac_rfl

/-! ## One owner -/

/-- If there is only one thing, who has it is the only one who has anything. -/
theorem alone_of_held (hs : s.places = {content})
    (held : s.loans = before ++ (client, x) :: after) :
    x = content ∧ before ++ after = [] ∧ s.slot.contents = [] ∧ s.dropped = [] := by
  rw [places, loans_of_held held, Multiset.add_cons, Multiset.cons_add, eq_comm,
    Multiset.singleton_eq_cons_iff] at hs
  obtain ⟨rfl, hrest⟩ := hs
  obtain ⟨hrest, hdropped⟩ := add_eq_zero.1 hrest
  obtain ⟨hcontents, hloans⟩ := add_eq_zero.1 hrest
  rw [Multiset.coe_eq_zero] at hcontents hloans hdropped
  exact ⟨rfl, List.map_eq_nil_iff.1 hloans, hcontents, hdropped⟩

/-- If there is only one thing and the slot owns it, nobody has it. -/
theorem alone_of_open (hs : s.places = {content}) (hslot : s.slot = .open x) :
    x = content ∧ s.loans = [] ∧ s.dropped = [] := by
  have hone : x ::ₘ ((s.loans.map Prod.snd : Multiset σ) + s.dropped) = {content} := by
    rw [← hs, places, hslot, add_assoc]
    exact (Multiset.singleton_add _ _).symm
  obtain ⟨rfl, hrest⟩ := (Multiset.singleton_eq_cons_iff _).1 hone.symm
  obtain ⟨hloans, hdropped⟩ := add_eq_zero.1 hrest
  rw [Multiset.coe_eq_zero] at hloans hdropped
  exact ⟨rfl, List.map_eq_nil_iff.1 hloans, hdropped⟩

/-- The content is out of the slot, and nobody else than one client may have it. -/
structure OutWith (client : Nat) (s : Lending σ) : Prop where
  out : s.slot.contents = []
  alone : ∀ loan ∈ s.loans, loan.1 = client

/-- Only the client who may have the content can bring it back. -/
theorem Step.outWith (hstep : Step s e t) (hs : s.OutWith client) :
    t.OutWith client ∨ ∃ x, e = .restored client x true := by
  cases hstep with
  | take c =>
    rw [Slot.take_of_contents hs.out, Option.toList_none, List.map_nil, List.append_nil]
    exact .inl hs
  | @restore c x before after held =>
    rcases s.slot.restore_cases x with ⟨-, hkept⟩ | hkept
    · rw [hkept]
      exact .inl ⟨rfl, fun loan hloan => hs.alone loan (by rw [held]; grind)⟩
    · have hc : c = client := hs.alone (c, x) (by rw [held]; simp)
      rw [hkept, hc]
      exact .inr ⟨x, rfl⟩
  | @release c x before after held =>
    exact .inl ⟨hs.out, fun loan hloan => hs.alone loan (by rw [held]; grind)⟩
  | close => exact .inl ⟨rfl, hs.alone⟩

/-- A closed slot stays closed, and answers as one. -/
theorem Step.closed (hstep : Step s e t) (hs : s.slot = .closed) :
    t.slot = .closed ∧ (∀ client x, e = .took client x → x = none) ∧
      ∀ client x kept, e = .restored client x kept → kept = false := by
  cases hstep with
  | take c => simp [hs, Slot.take]
  | restore held => simp [hs, Slot.restore]
  | release held => simp [hs]
  | close => simp [Slot.close]

/-! ## What clients can rely on -/

/-- What holds after anything that can happen to a slot and its content. -/
structure SoleOwner (content : σ) (h : List (Event σ)) (s : Lending σ) : Prop where
  /-- The content is at one place. -/
  place : s.places = {content}
  /-- Who asks for the content gets it if the slot has it, and nothing else. -/
  offered : ∀ {client x t}, Step s (.took client x) t →
    (x = some content ∧ s.slot = .open content) ∨ (x = none ∧ s.slot.contents = [])
  /-- What is put back is the content; the slot does not own anything at that time, and either owns
      the content afterwards or is closed and drops it. -/
  restored : ∀ {client x kept t}, Step s (.restored client x kept) t →
    x = content ∧ s.slot.contents = [] ∧
      (kept = true ∧ t.slot = .open content ∨
        kept = false ∧ s.slot = .closed ∧ t.slot = .closed ∧ t.dropped = [content])
  /-- Between a client who got the content and the next one, the former has put it back. -/
  exclusive : ∀ {before mid after client next x y},
    h = before ++ .took client (some x) :: mid ++ .took next (some y) :: after →
      x = content ∧ y = content ∧ .restored client content true ∈ mid
  /-- Once the slot was closed, it is closed, and nobody gets anything or gives anything back. -/
  final : ∀ {before after}, h = before ++ .closed :: after → s.slot = .closed ∧
    (∀ client x, .took client x ∈ after → x = none) ∧
      ∀ client x kept, .restored client x kept ∈ after → kept = false
  /-- Once the slot was closed and nobody has the content, it was dropped, once. -/
  dropped : .closed ∈ h → s.loans = [] → s.dropped = [content]

section Histories

variable {u : Lending σ} {k : List (Event σ)}

theorem places_of_steps (hsteps : Sequence Step (start content) h s) : s.places = {content} :=
  hsteps.holds (P := fun s => s.places = {content}) (fun hstep hs => hstep.places.trans hs) rfl

theorem restored_of_places (hs : s.places = {content}) {kept : Bool}
    (hstep : Step s (.restored client x kept) t) :
    x = content ∧ s.slot.contents = [] ∧
      (kept = true ∧ t.slot = .open content ∨
        kept = false ∧ s.slot = .closed ∧ t.slot = .closed ∧ t.dropped = [content]) := by
  cases hstep with
  | restore held =>
    obtain ⟨rfl, -, hout, hdropped⟩ := alone_of_held hs held
    refine ⟨rfl, hout, ?_⟩
    rcases s.slot.restore_cases x with ⟨hclosed, hkept⟩ | hkept
    · exact .inr ⟨by rw [hkept], hclosed, by rw [hkept], by rw [hdropped, hclosed]; rfl⟩
    · exact .inl ⟨by rw [hkept], by rw [hkept]⟩

theorem took_or_none (hs : s.places = {content}) {x : Option σ}
    (hstep : Step s (.took client x) t) :
    (x = some content ∧ s.slot = .open content) ∨ (x = none ∧ s.slot.contents = []) := by
  cases hstep with
  | take client =>
    cases hslot : s.slot with
    | «open» y =>
      obtain ⟨rfl, -⟩ := alone_of_open hs hslot
      exact .inl ⟨rfl, rfl⟩
    | taken => exact .inr ⟨rfl, rfl⟩
    | closed => exact .inr ⟨rfl, rfl⟩

/-- Who gets the content is the only one who has anything. -/
theorem took_of_places (hs : s.places = {content}) (hstep : Step s (.took client (some x)) t) :
    x = content ∧ s.slot = .open content ∧ t.OutWith client := by
  obtain ⟨hx, hslot⟩ | ⟨hx, -⟩ := took_or_none hs hstep
  · obtain ⟨-, hloans, -⟩ := alone_of_open hs hslot
    refine ⟨Option.some.inj hx, hslot, ?_⟩
    generalize he : Event.took client (some x) = e at hstep
    cases hstep with
    | take c =>
      obtain ⟨rfl, -⟩ := Event.took.inj he
      rw [hslot, hloans]
      exact ⟨rfl, by simp⟩
    | _ => cases he
  · cases hx

/-- As long as the client who got the content has not put it back, nobody else gets it. -/
theorem restored_of_took {next : Nat} {y : σ} (hs : s.places = {content})
    {mid after : List (Event σ)}
    (hsteps : Sequence Step s (.took client (some x) :: mid ++ .took next (some y) :: after) u) :
    x = content ∧ y = content ∧ .restored client content true ∈ mid := by
  rw [List.cons_append] at hsteps
  obtain _ | @⟨_, t, _, _, _, hfirst, hrest⟩ := hsteps
  obtain ⟨t', t'', hmid, hnext, -⟩ := hrest.exists_step
  obtain ⟨hx, -, hout⟩ := took_of_places hs hfirst
  have hstep : ∀ {s : Lending σ} {e t}, Step s e t → s.places = {content} ∧ s.OutWith client →
      (t.places = {content} ∧ t.OutWith client) ∨ e = .restored client content true := by
    rintro s e t hstep ⟨hs, hout⟩
    rcases hstep.outWith hout with ht | ⟨x, rfl⟩
    · exact .inl ⟨hstep.places.trans hs, ht⟩
    · obtain ⟨rfl, -⟩ := restored_of_places hs hstep
      exact .inr rfl
  have ht : t.places = {content} := hfirst.places.trans hs
  have ht' : t'.places = {content} :=
    hmid.holds (P := fun s => s.places = {content}) (fun hstep hs => hstep.places.trans hs) ht
  obtain ⟨hy, hopen, -⟩ := took_of_places ht' hnext
  rcases hmid.holds_unless hstep ⟨ht, hout⟩ with ⟨-, hout⟩ | ⟨e, he, rfl⟩
  · -- The slot owns nothing then, so nobody gets anything.
    have hnone := hout.out
    rw [hopen] at hnone
    cases hnone
  · exact ⟨hx, hy, he⟩

theorem closed_of_steps (hsteps : Sequence Step s h t) (hs : s.slot = .closed) : t.slot = .closed :=
  hsteps.holds (P := fun s => s.slot = .closed) (fun hstep hs => (hstep.closed hs).1) hs

/-- What happened to a closed slot did so in a state in which it was closed. -/
theorem exists_step_closed (hsteps : Sequence Step s h u) (hs : s.slot = .closed) (he : e ∈ h) :
    ∃ t t' : Lending σ, t.slot = .closed ∧ Step t e t' := by
  obtain ⟨before, after, rfl⟩ := List.append_of_mem he
  obtain ⟨t, t', hbefore, hstep, -⟩ := hsteps.exists_step
  exact ⟨t, t', closed_of_steps hbefore hs, hstep⟩

theorem exists_closed (hsteps : Sequence Step s (h ++ .closed :: k) u) :
    ∃ t : Lending σ, t.slot = .closed ∧ Sequence Step t k u := by
  obtain ⟨t, t', -, hstep, hrest⟩ := hsteps.exists_step
  cases hstep
  exact ⟨_, rfl, hrest⟩

end Histories

theorem sole_owner (hsteps : Sequence Step (start content) h s) : SoleOwner content h s where
  place := places_of_steps hsteps
  offered := took_or_none (places_of_steps hsteps)
  restored := restored_of_places (places_of_steps hsteps)
  exclusive := by
    rintro before mid after client next x y rfl
    rw [List.append_assoc] at hsteps
    obtain ⟨t, hbefore, hrest⟩ := hsteps.exists_of_append
    exact restored_of_took (places_of_steps hbefore) hrest
  final := by
    rintro before after rfl
    obtain ⟨t, ht, hrest⟩ := exists_closed hsteps
    refine ⟨closed_of_steps hrest ht, fun client x he => ?_, fun client x kept he => ?_⟩
    · obtain ⟨t, t', ht, hstep⟩ := exists_step_closed hrest ht he
      exact (hstep.closed ht).2.1 client x rfl
    · obtain ⟨t, t', ht, hstep⟩ := exists_step_closed hrest ht he
      exact (hstep.closed ht).2.2 client x kept rfl
  dropped := by
    intro hmem hloans
    obtain ⟨before, after, rfl⟩ := List.append_of_mem hmem
    obtain ⟨t, ht, hrest⟩ := exists_closed hsteps
    have hplaces := places_of_steps hsteps
    rw [places, closed_of_steps hrest ht, hloans] at hplaces
    exact Multiset.coe_eq_singleton.1 ((zero_add _).symm.trans hplaces)

/-- Two clients, and a slot that is closed while one of them has the content. -/
theorem sole_owner_closed_while_lent :
    Sequence Step (start 7) [.took 1 (some 7), .took 2 none, .restored 1 7 true, .took 2 (some 7),
      .closed, .took 1 none, .restored 2 7 false] { slot := .closed, dropped := [7] } ∧
    SoleOwner 7 [.took 1 (some 7), .took 2 none, .restored 1 7 true, .took 2 (some 7), .closed,
      .took 1 none, .restored 2 7 false] { slot := .closed, dropped := [7] } := by
  have hsteps : Sequence Step (start 7) [.took 1 (some 7), .took 2 none, .restored 1 7 true,
      .took 2 (some 7), .closed, .took 1 none, .restored 2 7 false]
      { slot := .closed, dropped := [7] } := by
    have hfirst : [(1, 7)] = [] ++ (1, 7) :: [] := rfl
    have hsecond : [(2, 7)] = [] ++ (2, 7) :: [] := rfl
    refine .cons (.take 1) (.cons (.take 2) (.cons (.restore hfirst) (.cons (.take 2) ?_)))
    exact .cons .close (.cons (.take 1) (.cons (.restore hsecond) (.nil _)))
  exact ⟨hsteps, sole_owner hsteps⟩

end Lending

end NetProbe
