import NetProbe.Proofs.Results
import NetProbe.Url.Basic
set_option autoImplicit false

/-! # Targets

The path and the query of a URL are visible ASCII, whatever they were made from: what else there is
in a text is written as bytes (`isVisible_target`). Heads of requests rely on this of every library
for URLs (`Library.IsVisible`). -/

namespace NetProbe.Url

/-- Whether a character is visible ASCII. -/
def IsVisibleAscii (c : Char) : Prop :=
  0x20 < c.toNat ∧ c.toNat ≤ 0x7e

theorem isVisible_upperHexDigit {n : Nat} (hn : n < 16) : IsVisibleAscii (upperHexDigit n) := by
  have hall : ∀ n < 16, 0x20 < (upperHexDigit n).toNat ∧ (upperHexDigit n).toNat ≤ 0x7e := by decide
  exact hall n hn

theorem isVisible_encodeByte (b : UInt8) : ∀ c ∈ encodeByte b, IsVisibleAscii c := by
  have hb := b.toNat_lt
  have hpercent : IsVisibleAscii '%' := by
    unfold IsVisibleAscii
    decide
  simp only [encodeByte, List.forall_mem_cons]
  exact ⟨hpercent, isVisible_upperHexDigit (by omega), isVisible_upperHexDigit (by omega), nofun⟩

theorem isVisible_encode {isSpecial : Char → Bool}
    (hspecial : ∀ c, isSpecial c = false → IsVisibleAscii c) (cs : List Char) :
    ∀ c ∈ encode isSpecial cs, IsVisibleAscii c := by
  intro c hc
  obtain ⟨d, -, hd⟩ := List.mem_flatMap.1 hc
  split at hd
  · obtain ⟨b, -, hb⟩ := List.mem_flatMap.1 hd
    exact isVisible_encodeByte b c hb
  · next hplain =>
    obtain rfl := List.mem_singleton.1 hd
    exact hspecial c (Bool.not_eq_true _ ▸ hplain)

theorem isVisible_of_isHidden {c : Char} (hhidden : isHidden c = false) (hspace : c ≠ ' ') :
    IsVisibleAscii c := by
  simp only [isHidden, Bool.or_eq_false_iff, decide_eq_false_iff_not] at hhidden
  have hne : c.toNat ≠ 0x20 := fun h => hspace (Char.toNat_inj.1 h)
  unfold IsVisibleAscii
  omega

theorem isVisible_of_isSpecialInQuery {c : Char} (h : isSpecialInQuery c = false) :
    IsVisibleAscii c := by
  rw [isSpecialInQuery, Bool.or_eq_false_iff] at h
  refine isVisible_of_isHidden h.1 ?_
  rintro rfl
  exact absurd h.2 (by decide)

theorem isVisible_of_isSpecialInPath {c : Char} (h : isSpecialInPath c = false) :
    IsVisibleAscii c := by
  rw [isSpecialInPath, isSpecialInFragment, Bool.or_eq_false_iff, Bool.or_eq_false_iff] at h
  refine isVisible_of_isHidden h.1.1 ?_
  rintro rfl
  exact absurd h.1.2 (by decide)

/-! ## Paths -/

/-- The induction is on the segments that are left; those before them are generalized. -/
theorem isVisible_resolve {parts : List (List Char)}
    (hparts : ∀ p ∈ parts, ∀ c ∈ p, IsVisibleAscii c) {before : List String}
    (hbefore : ∀ s ∈ before, ∀ c ∈ s.toList, IsVisibleAscii c) :
    ∀ s ∈ resolve before parts, ∀ c ∈ s.toList, IsVisibleAscii c := by
  induction parts generalizing before with
  | nil => exact hbefore
  | cons part parts ih =>
    obtain ⟨hpart, hparts⟩ := List.forall_mem_cons.1 hparts
    have hempty : ∀ s ∈ (if parts.isEmpty then [""] else [] : List String), ∀ c ∈ s.toList,
        IsVisibleAscii c := by
      intro s hs
      split at hs
      · obtain rfl := List.mem_singleton.1 hs
        exact nofun
      · cases hs
    rw [resolve]
    refine ih hparts ?_
    split
    · exact List.forall_mem_append.2
        ⟨fun s hs => hbefore s (List.dropLast_subset before hs), hempty⟩
    split
    · exact List.forall_mem_append.2 ⟨hbefore, hempty⟩
    · refine List.forall_mem_append.2 ⟨hbefore, ?_⟩
      intro s hs
      obtain rfl := List.mem_singleton.1 hs
      rwa [String.toList_ofList]

theorem isVisible_segmentsOf (cs : List Char) :
    ∀ s ∈ segmentsOf cs, ∀ c ∈ s.toList, IsVisibleAscii c := by
  rw [segmentsOf]
  refine isVisible_resolve ?_ nofun
  intro part hpart
  obtain ⟨p, -, rfl⟩ := List.mem_map.1 hpart
  exact isVisible_encode (fun c => isVisible_of_isSpecialInPath) p

/-! ## Targets -/

/-- Whether the segments of the path and the query are visible. -/
structure IsPrintable (u : Url) : Prop where
  segments : ∀ s ∈ u.segments, ∀ c ∈ s.toList, IsVisibleAscii c
  query : ∀ q, u.query = some q → ∀ c ∈ q.toList, IsVisibleAscii c

theorem isPrintable_of_parse {scheme : Scheme} {text : String} {u : Url}
    (h : parse scheme text = .ok u) : IsPrintable u := by
  rw [parse] at h
  split at h
  next user place _ =>
  split at h
  next hostText portText _ =>
  split at h
  · cases h
  split at h
  · cases h
  · cases h
  next host port _ _ =>
  obtain rfl := Except.ok.inj h
  refine ⟨isVisible_segmentsOf _, ?_⟩
  intro q hq c hc
  dsimp only at hq
  split at hq
  · obtain rfl := Option.some.inj hq
    rw [String.toList_ofList] at hc
    exact isVisible_encode (fun c => isVisible_of_isSpecialInQuery) _ c hc
  · cases hq

/-- What is read has a scheme of web pages. -/
theorem read_ok {text : String} {u : Url} (h : read text = .ok u) :
    ∃ scheme rest, parse scheme rest = .ok u := by
  rw [read] at h
  split at h
  · cases h
  · exact ⟨_, _, h⟩

theorem IsPrintable.withPath {u : Url} (h : IsPrintable u) (path : String) :
    IsPrintable (u.withPath path) where
  segments := isVisible_segmentsOf path.toList
  query := h.query

theorem isVisible_intercalate {sep : Char} (hsep : IsVisibleAscii sep) {parts : List (List Char)}
    (hparts : ∀ p ∈ parts, ∀ c ∈ p, IsVisibleAscii c) :
    ∀ c ∈ List.intercalate [sep] parts, IsVisibleAscii c := by
  induction parts with
  | nil => exact nofun
  | cons part parts ih =>
    obtain ⟨hpart, hparts⟩ := List.forall_mem_cons.1 hparts
    cases parts with
    | nil => simpa using hpart
    | cons next parts =>
      rw [List.intercalate_cons_cons]
      simp only [List.forall_mem_append, List.forall_mem_singleton]
      exact ⟨⟨hpart, hsep⟩, ih hparts⟩

theorem isVisible_target {u : Url} (h : IsPrintable u) :
    ∀ c ∈ u.target.toList, IsVisibleAscii c := by
  have hslash : IsVisibleAscii '/' := by
    unfold IsVisibleAscii
    decide
  have hmark : IsVisibleAscii '?' := by
    unfold IsVisibleAscii
    decide
  have hsegments : ∀ c ∈ ("/".intercalate u.segments).toList, IsVisibleAscii c := by
    intro c hc
    rw [String.toList_intercalate] at hc
    refine isVisible_intercalate hslash ?_ c hc
    intro p hp
    obtain ⟨s, hs, rfl⟩ := List.mem_map.1 hp
    exact h.segments s hs
  have hpath : ∀ c ∈ u.path.toList, IsVisibleAscii c := by
    rw [path, String.toList_append]
    exact List.forall_mem_cons.2 ⟨hslash, hsegments⟩
  unfold target
  split
  · next q hq =>
    rw [String.toList_append, String.toList_append, List.forall_mem_append, List.forall_mem_append]
    exact ⟨⟨hpath, List.forall_mem_cons.2 ⟨hmark, nofun⟩⟩, h.query q hq⟩
  · exact hpath

/-! ## Libraries -/

namespace Library

/-- Whether the paths and queries of the URLs that a library makes are visible ASCII. -/
def IsVisible (lib : Library) : Prop :=
  ∀ {text : String} {u : Url}, lib.parse text = .ok u → ∀ path : String,
    ∀ c ∈ (lib.withPath u path).target.toList, IsVisibleAscii c

theorem isVisible_ascii : ascii.IsVisible := by
  intro text u h path
  obtain ⟨scheme, rest, hparse⟩ := read_ok h
  exact isVisible_target ((isPrintable_of_parse hparse).withPath path)

end Library

end NetProbe.Url
