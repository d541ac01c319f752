import Mathlib.Data.List.Pairwise
import NetProbe.Proofs.Json.Schema
import NetProbe.Proofs.Results
set_option autoImplicit false

/-! # Records taken apart

A schema reads and writes a record field by field. When each field holds a part of the record of its
own, and the parts make up the record (`Layout`), the members of an object act on the record
independently of each other. So a member that does not change its part may come or go
(`foldlM_insert`), and every object that spells the parts that are not at their defaults spells the
record (`Layout.decode_kept`). -/

namespace NetProbe.Json

/-! ## Parts -/

/-- What a field holds of a record, and how this is read and spelled. -/
structure Part (σ : Type) where
  name : String
  Content : Type
  look : σ → Content
  put : Content → σ → σ
  read : Json → Except Misfit Content
  spell : Content → Json
  /-- Whether the field is left out of what is written. -/
  omits : Content → Bool
  look_put : ∀ a r, look (put a r) = a
  read_spell : ∀ a, read (spell a) = .ok a

namespace Part

variable {σ : Type}

/-- The field of a part. -/
def field (p : Part σ) : Field σ where
  name := p.name
  set := fun v r => (p.read v).map fun a => p.put a r
  get := fun r => if p.omits (p.look r) then none else some (p.spell (p.look r))

/-- The member that spells a part of a record. -/
def member (p : Part σ) (r : σ) : String × Json := (p.name, p.spell (p.look r))

/-- Whether neither of two parts changes when the other one is set. -/
def Apart (p q : Part σ) : Prop :=
  (∀ a r, p.look (q.put a r) = p.look r) ∧ ∀ a r, q.look (p.put a r) = q.look r

instance : Std.Symm (Apart (σ := σ)) := ⟨fun _ _ h => ⟨h.2, h.1⟩⟩

theorem set_spell (p : Part σ) (a : p.Content) (r : σ) :
    p.field.set (p.spell a) r = .ok (p.put a r) := by
  change (p.read (p.spell a)).map _ = _
  rw [p.read_spell]
  rfl

/-- A part that is set to what it is stays so. -/
theorem look_foldl_put {parts kept : List (Part σ)} {p : Part σ} {r d : σ} (hp : p ∈ parts)
    (hapart : ∀ p ∈ parts, ∀ q ∈ parts, p ≠ q → p.Apart q) (hkept : ∀ q ∈ kept, q ∈ parts)
    (h : p ∈ kept ∨ p.look d = p.look r) :
    p.look (kept.foldl (fun d q => q.put (q.look r) d) d) = p.look r := by
  induction kept generalizing d with
  | nil => exact h.resolve_left List.not_mem_nil
  | cons q kept ih =>
    obtain ⟨hq, hkept⟩ := List.forall_mem_cons.1 hkept
    refine ih hkept ?_
    by_cases heq : p = q
    · subst heq
      exact .inr (p.look_put _ _)
    · rw [List.mem_cons, or_iff_right heq] at h
      rw [(hapart p hp q hq heq).1]
      exact h

end Part

/-- The parts that make up a record of a schema. -/
structure Layout {σ : Type} (s : Schema σ) where
  parts : List (Part σ)
  fields_eq : s.fields = parts.map Part.field
  ordered : s.Ordered
  apart : parts.Pairwise Part.Apart
  /-- A part is left out only where it is at its default. -/
  omitted : ∀ p ∈ parts, ∀ a, p.omits a = true → a = p.look s.defaults
  /-- A record is told by its parts. -/
  ext : ∀ {r r' : σ}, (∀ p ∈ parts, p.look r = p.look r') → r = r'

/-! ## Members that do not matter -/

/-- A member that the step passes over wherever it comes, as does every member that it replaces, may
    be put in anywhere. `P` tells what holds of the state when its turn comes. -/
theorem foldlM_insert {σ ε : Type} (step : σ → String × Json → Except ε σ) (P : σ → Prop)
    {key : String} {v : Json} {members : List (String × Json)}
    (hkeep : ∀ m ∈ members, ∀ d d', P d → step d m = .ok d' → P d')
    (hsame : ∀ m ∈ members, m.1 = key → ∀ d, P d → step d m = .ok d)
    (hnew : ∀ d, P d → step d (key, v) = .ok d) {d : σ} (hd : P d) :
    (insert key v members).foldlM step d = members.foldlM step d := by
  induction members generalizing d with
  | nil =>
    rw [insert, List.foldlM_cons, hnew d hd]
    rfl
  | cons m members ih =>
    obtain ⟨hkeep₁, hkeep⟩ := List.forall_mem_cons.1 hkeep
    obtain ⟨hsame₁, hsame⟩ := List.forall_mem_cons.1 hsame
    rw [insert]
    split
    · rw [List.foldlM_cons, hnew d hd]
      rfl
    split
    · next heq =>
      rw [List.foldlM_cons, List.foldlM_cons, hnew d hd, hsame₁ heq.symm d hd]
    · rw [List.foldlM_cons, List.foldlM_cons]
      cases hstep : step d m with
      | error e => rfl
      | ok d' => exact ih hkeep hsame (hkeep₁ d d' hd hstep)

namespace Schema

variable {σ : Type} {s : Schema σ}

theorem setMember_of_not_mem {m : String × Json} (hm : m.1 ∉ s.fields.map Field.name) (d : σ) :
    s.setMember d m = .ok d := by
  have hfind : (s.fields.find? fun f => f.name == m.1) = none := by
    rw [List.find?_eq_none]
    intro f hf hname
    exact hm (List.mem_map.2 ⟨f, hf, by simpa using hname⟩)
  rw [setMember, hfind]

/-- Members that name no field leave what an object spells as it is. -/
theorem decode_extra {extra : List (String × Json)}
    (hextra : ∀ m ∈ extra, m.1 ∉ s.fields.map Field.name) (members : List (String × Json)) :
    s.decode (.object (extra.foldl (fun acc m => insert m.1 m.2 acc) members)) =
      s.decode (.object members) := by
  induction extra generalizing members with
  | nil => rfl
  | cons m extra ih =>
    obtain ⟨hm, hextra⟩ := List.forall_mem_cons.1 hextra
    rw [List.foldl_cons, ih hextra]
    refine foldlM_insert s.setMember (fun _ => True) (fun _ _ _ _ _ _ => trivial) ?_
      (fun d _ => setMember_of_not_mem hm d) trivial
    intro m' _ hkey d _
    refine setMember_of_not_mem ?_ d
    rw [hkey]
    exact hm

end Schema

namespace Layout

variable {σ : Type} {s : Schema σ} (L : Layout s)

theorem apart_of_ne {p q : Part σ} (hp : p ∈ L.parts) (hq : q ∈ L.parts) (hne : p ≠ q) :
    p.Apart q :=
  L.apart.forall hp hq hne

theorem field_mem {p : Part σ} (hp : p ∈ L.parts) : p.field ∈ s.fields := by
  rw [L.fields_eq]
  exact List.mem_map_of_mem hp

/-- The member that spells a part sets it. -/
theorem setMember_member {p : Part σ} (hp : p ∈ L.parts) (r d : σ) :
    s.setMember d (p.member r) = .ok (p.put (p.look r) d) :=
  (Schema.setMember_of_mem L.ordered (L.field_mem hp) _ d).trans (p.set_spell _ d)

/-- Setting a part to what it is changes nothing. -/
theorem put_look {p : Part σ} (hp : p ∈ L.parts) (d : σ) : p.put (p.look d) d = d := by
  refine L.ext fun q hq => ?_
  by_cases heq : q = p
  · subst heq
    exact q.look_put _ _
  · exact (L.apart_of_ne hq hp heq).1 _ _

/-- A member with another key leaves a part as it is. -/
theorem look_setMember {p : Part σ} (hp : p ∈ L.parts) {m : String × Json} (hm : m.1 ≠ p.name)
    {d d' : σ} (h : s.setMember d m = .ok d') : p.look d' = p.look d := by
  rw [Schema.setMember] at h
  split at h
  · next f hfind =>
    have hname : f.name = m.1 := by simpa using List.find?_some hfind
    have hf := List.mem_of_find?_eq_some hfind
    rw [L.fields_eq] at hf
    obtain ⟨q, hq, rfl⟩ := List.mem_map.1 hf
    have hne : p ≠ q := by
      rintro rfl
      exact hm hname.symm
    obtain ⟨a, -, rfl⟩ := map_eq_ok_iff.1 h
    exact (L.apart_of_ne hp hq hne).1 a d
  · cases h
    rfl

/-- A member that spells the default of its part changes nothing where none stood. -/
theorem decode_default {p : Part σ} (hp : p ∈ L.parts) {members : List (String × Json)}
    (habsent : p.name ∉ members.map Prod.fst) :
    s.decode (.object (insert p.name (p.spell (p.look s.defaults)) members)) =
      s.decode (.object members) := by
  have hne : ∀ m ∈ members, m.1 ≠ p.name := fun m hm heq =>
    habsent (List.mem_map.2 ⟨m, hm, heq⟩)
  -- Until its turn comes, the part is at its default.
  refine foldlM_insert s.setMember (fun d => p.look d = p.look s.defaults) ?_ ?_ ?_ rfl
  · intro m hm d d' hd hstep
    rw [L.look_setMember hp (hne m hm) hstep, hd]
  · intro m hm heq
    exact absurd heq (hne m hm)
  · intro d hd
    rw [← hd]
    exact (L.setMember_member hp d d).trans (congrArg Except.ok (L.put_look hp d))

/-! ## What spells a record -/

theorem foldlM_member {kept : List (Part σ)} (hkept : ∀ p ∈ kept, p ∈ L.parts) (r d : σ) :
    (kept.map (Part.member · r)).foldlM s.setMember d =
      .ok (kept.foldl (fun d p => p.put (p.look r) d) d) := by
  induction kept generalizing d with
  | nil => rfl
  | cons p kept ih =>
    obtain ⟨hp, hkept⟩ := List.forall_mem_cons.1 hkept
    rw [List.map_cons, List.foldlM_cons, L.setMember_member hp]
    exact ih hkept _

/-- A record is spelled by every object that spells its parts and leaves out none but some that are
    at their defaults. -/
theorem decode_kept {kept : List (Part σ)} (hkept : kept.Sublist L.parts) {r : σ}
    (hleft : ∀ p ∈ L.parts, p ∉ kept → p.look r = p.look s.defaults) :
    s.decode (ofMembers (kept.map (Part.member · r))) = .ok r := by
  have hnames : (L.parts.map Part.name).Pairwise (· < ·) := by
    have hordered := L.ordered
    rw [Schema.Ordered, L.fields_eq, List.map_map] at hordered
    exact hordered
  have hsorted : (kept.map (Part.member · r)).Pairwise fun m n => m.1 < n.1 := by
    rw [List.pairwise_map]
    exact (List.pairwise_map.1 hnames).sublist hkept
  have hsub : ∀ p ∈ kept, p ∈ L.parts := fun p hp => hkept.subset hp
  rw [ofMembers_of_pairwise hsorted, Schema.decode, L.foldlM_member hsub]
  refine congrArg Except.ok (L.ext fun p hp => ?_)
  refine Part.look_foldl_put hp (fun p hp q hq hne => L.apart_of_ne hp hq hne) hsub ?_
  by_cases hmem : p ∈ kept
  · exact .inl hmem
  · exact .inr (hleft p hp hmem).symm

/-- What is written of a record leaves out none but parts that are at their defaults. -/
theorem encode_kept (r : σ) :
    ∃ kept : List (Part σ), kept.Sublist L.parts ∧
      (∀ p ∈ L.parts, p ∉ kept → p.look r = p.look s.defaults) ∧
      s.encode r = ofMembers (kept.map (Part.member · r)) := by
  refine ⟨L.parts.filter fun p => !p.omits (p.look r), List.filter_sublist, ?_, ?_⟩
  · intro p hp hleft
    refine L.omitted p hp _ ?_
    by_contra h
    exact hleft (List.mem_filter.2 ⟨hp, by simpa using h⟩)
  · rw [Schema.encode, L.fields_eq, List.filterMap_map]
    congr 1
    generalize L.parts = parts
    induction parts with
    | nil => rfl
    | cons p parts ih =>
      by_cases h : p.omits (p.look r) = true
      · have hget : p.field.get r = none := if_pos h
        rw [List.filterMap_cons_none (by simp [hget]), List.filter_cons_of_neg (by simp [h]), ih]
      · have hget : p.field.get r = some (p.spell (p.look r)) := if_neg h
        rw [List.filterMap_cons_some (b := p.member r) (by simp [hget]; rfl),
          List.filter_cons_of_pos (by simp [h]), ih]
        rfl

end Layout

end NetProbe.Json
