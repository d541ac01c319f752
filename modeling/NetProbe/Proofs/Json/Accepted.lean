import NetProbe.Proofs.Json.Spans
import NetProbe.Proofs.Results
set_option autoImplicit false

/-! # What can be read

Every value that the reader builds is canonical, is nested less deep than the reader admits and no
deeper than the text it was read from: `readValue_sound`. A value that is skipped closes all that it
opens: `spans_skipValue`. -/

namespace NetProbe.Json

/-! ## Members in order -/

section

variable {key : String} {value : Json} {members : List (String × Json)}

theorem mem_insert {m : String × Json} (h : m ∈ insert key value members) :
    m = (key, value) ∨ m ∈ members := by
  induction members with
  | nil => exact .inl (List.mem_singleton.1 h)
  | cons n members ih =>
    rw [insert] at h
    split at h
    · exact List.mem_cons.1 h
    split at h
    · exact (List.mem_cons.1 h).imp_right (List.mem_cons_of_mem n)
    · rcases List.mem_cons.1 h with rfl | h
      · exact .inr List.mem_cons_self
      · exact (ih h).imp_right (List.mem_cons_of_mem n)

theorem Ascending.insert (h : Ascending members) : Ascending (insert key value members) := by
  induction members with
  | nil => exact List.pairwise_singleton _ _
  | cons n members ih =>
    obtain ⟨hn, hmembers⟩ := List.pairwise_cons.1 h
    rw [Json.insert]
    split
    · next hlt =>
      refine List.pairwise_cons.2 ⟨fun m hm => ?_, h⟩
      rcases List.mem_cons.1 hm with rfl | hm
      · exact hlt
      · exact String.lt_trans hlt (hn m hm)
    split
    · next heq => exact List.pairwise_cons.2 ⟨fun m hm => heq ▸ hn m hm, hmembers⟩
    · next hlt hne =>
      refine List.pairwise_cons.2 ⟨fun m hm => ?_, ih hmembers⟩
      rcases mem_insert hm with rfl | hm
      · exact String.not_le.1 fun hle => hne (String.le_antisymm hle (String.not_lt.1 hlt))
      · exact hn m hm

theorem EveryMember.insert {N : JsonNumber → Prop} {M : List (String × Json) → Prop}
    (hvalue : Everywhere N M value) (h : EveryMember N M members) :
    EveryMember N M (insert key value members) := by
  induction members with
  | nil => exact ⟨hvalue, trivial⟩
  | cons n members ih =>
    rw [Json.insert]
    split
    · exact ⟨hvalue, h⟩
    split
    · exact ⟨hvalue, h.2⟩
    · exact ⟨h.1, ih h.2⟩

theorem nestingMembers_insert_le :
    nestingMembers (insert key value members) ≤ max (nesting value) (nestingMembers members) := by
  induction members with
  | nil => exact Nat.le_refl _
  | cons n members ih =>
    rw [Json.insert]
    split
    · exact Nat.le_refl _
    split
    · simp only [nestingMembers]
      omega
    · simp only [nestingMembers] at ih ⊢
      omega

end

/-- The members that an object keeps are among those that were read. -/
theorem ofMembers_canonical {members : List (String × Json)}
    (h : EveryMember InRange Ascending members) :
    (ofMembers members).Canonical ∧ nesting (ofMembers members) ≤ nestingMembers members + 1 := by
  have hfold (acc members : List (String × Json)) (hacc : Ascending acc)
      (hmembers : EveryMember InRange Ascending members)
      (hvalues : EveryMember InRange Ascending acc) :
      let ms := members.foldl (fun acc m => insert m.1 m.2 acc) acc
      Ascending ms ∧ EveryMember InRange Ascending ms ∧
        nestingMembers ms ≤ max (nestingMembers acc) (nestingMembers members) := by
    induction members generalizing acc with
    | nil => exact ⟨hacc, hvalues, Nat.le_max_left _ _⟩
    | cons m members ih =>
      obtain ⟨h₁, h₂, h₃⟩ := ih (insert m.1 m.2 acc) hacc.insert hmembers.2
        (EveryMember.insert hmembers.1 hvalues)
      refine ⟨h₁, h₂, Nat.le_trans h₃ ?_⟩
      have hinsert : nestingMembers (insert m.1 m.2 acc) ≤ max m.2.nesting (nestingMembers acc) :=
        nestingMembers_insert_le
      simp only [nestingMembers]
      omega
  obtain ⟨h₁, h₂, h₃⟩ := hfold [] members List.Pairwise.nil h trivial
  refine ⟨⟨h₁, h₂⟩, ?_⟩
  simp only [nestingMembers, Nat.zero_max] at h₃
  rw [ofMembers, nesting]
  omega

/-! ## Values -/

mutual

theorem readValue_sound : ∀ {fuel depth : Nat} {cs rest : List Char} {v : Json},
    readValue fuel depth cs = .ok (v, rest) → 0 < depth →
    v.Canonical ∧ nesting v < depth ∧ Spans (nesting v) cs rest
  | 0, _, _, _, _, h, _ => by cases h
  | fuel + 1, depth, cs, rest, v, h, hdepth => by
    -- One case for each way in which a value starts.
    rw [readValue.eq_def] at h
    simp only at h
    split at h
    · cases h
    · next hskip =>
      obtain ⟨cs, hword, h⟩ := bind_eq_ok_iff.1 h
      cases h
      exact ⟨trivial, hdepth, (spans_skipBlank hskip).after (spans_word (isPlain_of_all rfl) hword)⟩
    · next hskip =>
      obtain ⟨cs, hword, h⟩ := bind_eq_ok_iff.1 h
      cases h
      exact ⟨trivial, hdepth, (spans_skipBlank hskip).after (spans_word (isPlain_of_all rfl) hword)⟩
    · next hskip =>
      obtain ⟨cs, hword, h⟩ := bind_eq_ok_iff.1 h
      cases h
      exact ⟨trivial, hdepth, (spans_skipBlank hskip).after (spans_word (isPlain_of_all rfl) hword)⟩
    · next hskip =>
      obtain ⟨⟨s, cs⟩, hstring, h⟩ := bind_eq_ok_iff.1 h
      cases h
      exact ⟨trivial, hdepth, (spans_skipBlank hskip).after (spans_readString hstring)⟩
    · next hskip =>
      split at h
      · cases h
      · cases h
      · next hne =>
        obtain ⟨⟨items, cs⟩, hitems, h⟩ := bind_eq_ok_iff.1 h
        obtain ⟨cs', hend, h⟩ := bind_eq_ok_iff.1 h
        cases h
        obtain ⟨hvalues, hnesting, hspans⟩ := readItems_sound hitems (Nat.pos_of_ne_zero hne)
        refine ⟨hvalues, Nat.succ_lt_succ hnesting, (spans_skipBlank hskip).after ?_⟩
        exact (hspans.before (spans_endList hend)).list
    · next hskip =>
      split at h
      · cases h
      · cases h
      · next hne =>
        obtain ⟨⟨members, cs⟩, hmembers, h⟩ := bind_eq_ok_iff.1 h
        obtain ⟨cs', hend, h⟩ := bind_eq_ok_iff.1 h
        cases h
        obtain ⟨hvalues, hnesting, hspans⟩ := readMembers_sound hmembers (Nat.pos_of_ne_zero hne)
        obtain ⟨hcanonical, hle⟩ := ofMembers_canonical hvalues
        refine ⟨hcanonical, Nat.lt_of_le_of_lt hle (Nat.succ_lt_succ hnesting),
          (spans_skipBlank hskip).after (Spans.mono ?_ hle)⟩
        exact (hspans.before (spans_endObject hend)).object
    · next hskip =>
      split at h
      · obtain ⟨⟨n, cs⟩, hnumber, h⟩ := bind_eq_ok_iff.1 h
        cases h
        obtain ⟨hrange, hspans⟩ := readNumber_eq_ok hnumber
        exact ⟨hrange, hdepth, (spans_skipBlank hskip).after hspans⟩
      · cases h

theorem readItems_sound : ∀ {fuel depth : Nat} {first : Bool} {cs rest : List Char}
    {items : List Json}, readItems fuel depth first cs = .ok (items, rest) → 0 < depth →
    EveryItem InRange Ascending items ∧ nestingItems items < depth ∧
      Spans (nestingItems items) cs rest
  | 0, _, _, _, _, _, h, _ => by cases h
  | fuel + 1, depth, first, cs, rest, items, h, hdepth => by
    rw [readItems] at h
    obtain ⟨⟨more, mid⟩, hnext, h⟩ := bind_eq_ok_iff.1 h
    have hspans := spans_nextItem hnext
    dsimp only at h
    split at h
    · obtain ⟨⟨v, cs'⟩, hv, h⟩ := bind_eq_ok_iff.1 h
      obtain ⟨⟨vs, cs''⟩, hvs, h⟩ := bind_eq_ok_iff.1 h
      cases h
      obtain ⟨hv₁, hv₂, hv₃⟩ := readValue_sound hv hdepth
      obtain ⟨hvs₁, hvs₂, hvs₃⟩ := readItems_sound hvs hdepth
      exact ⟨⟨hv₁, hvs₁⟩, Nat.max_lt.2 ⟨hv₂, hvs₂⟩, hspans.after (hv₃.trans hvs₃)⟩
    · cases h
      exact ⟨trivial, hdepth, hspans⟩

theorem readMembers_sound : ∀ {fuel depth : Nat} {first : Bool} {cs rest : List Char}
    {members : List (String × Json)}, readMembers fuel depth first cs = .ok (members, rest) →
    0 < depth →
    EveryMember InRange Ascending members ∧ nestingMembers members < depth ∧
      Spans (nestingMembers members) cs rest
  | 0, _, _, _, _, _, h, _ => by cases h
  | fuel + 1, depth, first, cs, rest, members, h, hdepth => by
    rw [readMembers] at h
    obtain ⟨⟨more, mid⟩, hnext, h⟩ := bind_eq_ok_iff.1 h
    have hspans := spans_nextKey hnext
    dsimp only at h
    split at h
    · next hmore =>
      obtain ⟨⟨k, cs₁⟩, hk, h⟩ := bind_eq_ok_iff.1 h
      obtain ⟨cs₂, hcolon, h⟩ := bind_eq_ok_iff.1 h
      obtain ⟨⟨v, cs₃⟩, hv, h⟩ := bind_eq_ok_iff.1 h
      obtain ⟨⟨ms, cs₄⟩, hms, h⟩ := bind_eq_ok_iff.1 h
      cases h
      rw [if_pos hmore] at hspans
      have hkey := (hspans.after (spans_readString hk)).after (spans_readColon hcolon)
      obtain ⟨hv₁, hv₂, hv₃⟩ := readValue_sound hv hdepth
      obtain ⟨hms₁, hms₂, hms₃⟩ := readMembers_sound hms hdepth
      exact ⟨⟨hv₁, hms₁⟩, Nat.max_lt.2 ⟨hv₂, hms₂⟩, hkey.after (hv₃.trans hms₃)⟩
    · next hmore =>
      cases h
      rw [if_neg hmore] at hspans
      exact ⟨trivial, hdepth, hspans⟩

end

/-! ## Values that are skipped -/

mutual

theorem spans_skipValue : ∀ {fuel : Nat} {cs rest : List Char}, skipValue fuel cs = .ok rest →
    Spans 0 cs rest
  | 0, _, _, h => by cases h
  | fuel + 1, cs, rest, h => by
    rw [skipValue.eq_def] at h
    simp only at h
    split at h
    · cases h
    · next hskip => exact (spans_skipBlank hskip).after (spans_word (isPlain_of_all rfl) h)
    · next hskip => exact (spans_skipBlank hskip).after (spans_word (isPlain_of_all rfl) h)
    · next hskip => exact (spans_skipBlank hskip).after (spans_word (isPlain_of_all rfl) h)
    · next hskip => exact (spans_skipBlank hskip).after (spans_skipString h)
    · next hskip =>
      exact (spans_skipBlank hskip).after ((spans_skipItems h).list.mono (Nat.zero_le _))
    · next hskip =>
      exact (spans_skipBlank hskip).after ((spans_skipMembers h).object.mono (Nat.zero_le _))
    · next hskip =>
      exact (spans_skipBlank hskip).after ((spans_skipUnsigned h).cons (by decide))
    · next hskip =>
      split at h
      · exact (spans_skipBlank hskip).after (spans_skipUnsigned h)
      · cases h

theorem spans_skipItems : ∀ {fuel : Nat} {first : Bool} {cs rest : List Char},
    skipItems fuel first cs = .ok rest → Spans 0 cs (']' :: rest)
  | 0, _, _, _, h => by cases h
  | fuel + 1, first, cs, rest, h => by
    rw [skipItems] at h
    split at h
    · cases h
    next c cs' hskip =>
    have hblank := spans_skipBlank hskip
    split at h
    · next hend =>
      cases h
      rwa [eq_of_beq hend] at hblank
    split at h
    · obtain ⟨mid, hvalue, h⟩ := bind_eq_ok_iff.1 h
      exact (hblank.after (spans_skipValue hvalue)).after (spans_skipItems h)
    split at h
    · next hcomma =>
      obtain ⟨mid, hvalue, h⟩ := bind_eq_ok_iff.1 h
      rw [eq_of_beq hcomma] at hblank
      have hspans := (spans_skipValue hvalue).cons (by decide : IsPlain ',')
      exact (hblank.after hspans).after (spans_skipItems h)
    · cases h

theorem spans_skipMembers : ∀ {fuel : Nat} {first : Bool} {cs rest : List Char},
    skipMembers fuel first cs = .ok rest → Spans 0 cs ('}' :: rest)
  | 0, _, _, _, h => by cases h
  | fuel + 1, first, cs, rest, h => by
    rw [skipMembers] at h
    split at h
    · cases h
    next c cs' hskip =>
    have hblank := spans_skipBlank hskip
    split at h
    · next hend =>
      cases h
      rwa [eq_of_beq hend] at hblank
    split at h
    · exact hblank.after (spans_skipMember h)
    split at h
    · next hcomma =>
      rw [eq_of_beq hcomma] at hblank
      exact hblank.after ((spans_skipMember h).cons (by decide))
    · cases h

theorem spans_skipMember : ∀ {fuel : Nat} {cs rest : List Char},
    skipMember fuel cs = .ok rest → Spans 0 cs ('}' :: rest)
  | 0, _, _, h => by cases h
  | fuel + 1, cs, rest, h => by
    rw [skipMember] at h
    split at h
    · cases h
    next c cs' hskip =>
    have hblank := spans_skipBlank hskip
    split at h
    · next hquote =>
      obtain ⟨cs₁, hkey, h⟩ := bind_eq_ok_iff.1 h
      obtain ⟨cs₂, hcolon, h⟩ := bind_eq_ok_iff.1 h
      obtain ⟨cs₃, hvalue, h⟩ := bind_eq_ok_iff.1 h
      rw [eq_of_beq hquote] at hblank
      have hmember := (spans_readColon hcolon).after (spans_skipValue hvalue)
      exact (hblank.after (spans_skipString hkey)).after (hmember.after (spans_skipMembers h))
    · cases h

end

end NetProbe.Json
