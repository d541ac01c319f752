import NetProbe.Proofs.Json.Accepted
import NetProbe.Proofs.Program.RoundTrip
set_option autoImplicit false

/-! # Programs are written again

Whatever text a program was read from, the text that is written for it is nested at most one level
deeper, since `children` is written even where it was left out. So it is read back unless it passes
the limit by this one level (`reencoding`), as `tower 63` does. -/

namespace NetProbe.Node

open Json (Spans Canonical)

/-! ## What is read of a program -/

/-- The deepest value among the members of a node that were met. -/
def Met.nesting (m : Met) : Nat :=
  max (m.arguments.getD .null).nesting (Json.nestingItems (listToJson (m.children.getD [])))

/-- Whether the arguments and the children that were met are such as can be read. -/
def Met.Canonical (m : Met) : Prop :=
  (m.arguments.getD .null).Canonical ∧ EveryArgumentsIn Json.Canonical (m.children.getD [])

theorem Met.node_eq_ok {m : Met} {n : Node} (h : m.node = .ok n) :
    n.arguments = m.arguments.getD .null ∧ n.children = m.children.getD [] := by
  rw [Met.node] at h
  split at h
  · cases h
  · cases h
    exact ⟨rfl, rfl⟩

theorem spans_expectString {cs rest : List Char} {s : String}
    (h : Json.expectString cs = .ok (s, rest)) : Spans 0 cs rest := by
  rw [Json.expectString] at h
  split at h
  · cases h
  · next hskip => exact (Json.spans_skipBlank hskip).after (Json.spans_readString h)
  · cases h

mutual

/-- The object that is written for a node may stand one level deeper than the text that was read:
    there the list of the children may be missing. -/
theorem read_sound : ∀ {fuel depth : Nat} {cs rest : List Char} {n : Node},
    read fuel depth cs = .ok (n, rest) →
    n.EveryArguments Canonical ∧
      ∃ k, n.toJson.nesting ≤ k + 1 ∧ k < depth ∧ Spans k cs rest
  | 0, _, _, _, _, h => by
    rw [read] at h
    cases h
  | fuel + 1, depth, cs, rest, ⟨func, arguments, children⟩, h => by
    rw [read] at h
    rw [nesting_toJson]
    split at h
    · cases h
    next c cs' hskip =>
    have hblank := Json.spans_skipBlank hskip
    split at h
    · next hlist =>
      rw [eq_of_beq hlist] at hblank
      split at h
      · cases h
      · cases h
      next depth hne =>
      obtain ⟨⟨n, cs₁⟩, hn, h⟩ := bind_eq_ok_iff.1 h
      obtain ⟨cs₂, hend, h⟩ := bind_eq_ok_iff.1 h
      cases h
      obtain ⟨hcanonical, k, harguments, hchildren, hk, hspans⟩ :=
        readPlaces_sound hn (Nat.pos_of_ne_zero hne)
      refine ⟨hcanonical, k + 1, ?_, Nat.succ_lt_succ hk,
        hblank.after (hspans.before (Json.spans_endList hend)).list⟩
      simp only at harguments hchildren ⊢
      omega
    split at h
    · next hobject =>
      rw [eq_of_beq hobject] at hblank
      split at h
      · cases h
      · cases h
      next depth hne =>
      obtain ⟨⟨m, cs₁⟩, hm, h⟩ := bind_eq_ok_iff.1 h
      obtain ⟨n, hn, h⟩ := bind_eq_ok_iff.1 h
      obtain ⟨cs₂, hend, h⟩ := bind_eq_ok_iff.1 h
      cases h
      obtain ⟨hcanonical, k, hnesting, hk, hspans⟩ :=
        readMembers_sound hm (Nat.pos_of_ne_zero hne) ⟨trivial, trivial⟩
      obtain ⟨harguments, hchildren⟩ := Met.node_eq_ok hn
      simp only at harguments hchildren
      rw [Met.Canonical, ← harguments, ← hchildren] at hcanonical
      rw [Met.nesting, ← harguments, ← hchildren] at hnesting
      refine ⟨hcanonical, k + 1, ?_, Nat.succ_lt_succ hk,
        hblank.after (hspans.before (Json.spans_endObject hend)).object⟩
      have hempty : Met.nesting {} = 0 := rfl
      simp only
      omega
    · cases h

theorem readPlaces_sound : ∀ {fuel depth : Nat} {cs rest : List Char} {n : Node},
    readPlaces fuel depth cs = .ok (n, rest) → 0 < depth →
    n.EveryArguments Canonical ∧ ∃ k, n.arguments.nesting ≤ k ∧
      Json.nestingItems (listToJson n.children) ≤ k ∧ k < depth ∧ Spans k cs rest
  | 0, _, _, _, _, h, _ => by
    rw [readPlaces] at h
    cases h
  | fuel + 1, depth, cs, rest, n, h, hdepth => by
    rw [readPlaces] at h
    obtain ⟨⟨more, cs₁⟩, hfirst, h⟩ := bind_eq_ok_iff.1 h
    dsimp only at h
    split at h
    · cases h
    obtain ⟨⟨func, cs₂⟩, hfunc, h⟩ := bind_eq_ok_iff.1 h
    obtain ⟨⟨more', cs₃⟩, hsecond, h⟩ := bind_eq_ok_iff.1 h
    have hspans := ((Json.spans_nextItem hfirst).after (spans_expectString hfunc)).after
      (Json.spans_nextItem hsecond)
    dsimp only at h
    split at h
    · cases h
      exact ⟨⟨trivial, trivial⟩, 0, Nat.le_refl 0, Nat.le_refl 0, hdepth, hspans⟩
    obtain ⟨⟨arguments, cs₄⟩, harguments, h⟩ := bind_eq_ok_iff.1 h
    obtain ⟨hcanonical, hnesting, hspans'⟩ := Json.readValue_sound harguments hdepth
    obtain ⟨⟨more'', cs₅⟩, hthird, h⟩ := bind_eq_ok_iff.1 h
    have hspans := (hspans.after hspans').before (Json.spans_nextItem hthird)
    dsimp only at h
    split at h
    · cases h
      exact ⟨⟨hcanonical, trivial⟩, _, Nat.le_refl _, Nat.zero_le _, hnesting, hspans⟩
    obtain ⟨⟨children, cs₆⟩, hchildren, h⟩ := bind_eq_ok_iff.1 h
    cases h
    obtain ⟨hcanonical', k, hle, hk, hspans'⟩ := readList_sound hchildren
    exact ⟨⟨hcanonical, hcanonical'⟩, _, Nat.le_max_left _ _,
      Nat.le_trans hle (Nat.le_max_right _ _),
      Nat.max_lt.2 ⟨hnesting, hk⟩, hspans.trans hspans'⟩

theorem readMembers_sound : ∀ {fuel depth : Nat} {first : Bool} {m m' : Met} {cs rest : List Char},
    readMembers fuel depth first m cs = .ok (m', rest) → 0 < depth → m.Canonical →
    m'.Canonical ∧ ∃ k, m'.nesting ≤ max m.nesting k ∧ k < depth ∧ Spans k cs rest
  | 0, _, _, _, _, _, _, h, _, _ => by
    rw [readMembers] at h
    cases h
  | fuel + 1, depth, first, m, m', cs, rest, h, hdepth, hm => by
    rw [readMembers] at h
    obtain ⟨⟨more, cs₁⟩, hnext, h⟩ := bind_eq_ok_iff.1 h
    have hspans := Json.spans_nextKey hnext
    dsimp only at h
    split at h
    · next hmore =>
      cases h
      rw [if_neg (by simpa using hmore)] at hspans
      exact ⟨hm, 0, Nat.le_max_left _ _, hdepth, hspans⟩
    next hmore =>
    rw [if_pos (by simpa using hmore)] at hspans
    obtain ⟨⟨key, cs₂⟩, hkey, h⟩ := bind_eq_ok_iff.1 h
    have hspans := hspans.after (Json.spans_readString hkey)
    dsimp only at h
    split at h
    · obtain ⟨_, -, h⟩ := bind_eq_ok_iff.1 h
      obtain ⟨cs₃, hcolon, h⟩ := bind_eq_ok_iff.1 h
      obtain ⟨⟨func, cs₄⟩, hfunc, h⟩ := bind_eq_ok_iff.1 h
      obtain ⟨hcanonical, k, hle, hk, hspans'⟩ := readMembers_sound h hdepth hm
      have hmember := (Json.spans_readColon hcolon).after (spans_expectString hfunc)
      exact ⟨hcanonical, k, hle, hk, (hspans.after hmember).after hspans'⟩
    split at h
    · obtain ⟨_, -, h⟩ := bind_eq_ok_iff.1 h
      obtain ⟨cs₃, hcolon, h⟩ := bind_eq_ok_iff.1 h
      obtain ⟨⟨arguments, cs₄⟩, harguments, h⟩ := bind_eq_ok_iff.1 h
      obtain ⟨hv, hnesting, hvalue⟩ := Json.readValue_sound harguments hdepth
      obtain ⟨hcanonical, k, hle, hk, hspans'⟩ := readMembers_sound h hdepth ⟨hv, hm.2⟩
      have hmember := (Json.spans_readColon hcolon).after hvalue
      refine ⟨hcanonical, _, ?_, Nat.max_lt.2 ⟨hnesting, hk⟩,
        hspans.after (hmember.trans hspans')⟩
      simp only [Met.nesting, Option.getD_some] at hle ⊢
      omega
    split at h
    · obtain ⟨_, -, h⟩ := bind_eq_ok_iff.1 h
      obtain ⟨cs₃, hcolon, h⟩ := bind_eq_ok_iff.1 h
      obtain ⟨⟨children, cs₄⟩, hchildren, h⟩ := bind_eq_ok_iff.1 h
      obtain ⟨hv, k', hle', hk', hvalue⟩ := readList_sound hchildren
      obtain ⟨hcanonical, k, hle, hk, hspans'⟩ := readMembers_sound h hdepth ⟨hm.1, hv⟩
      have hmember := (Json.spans_readColon hcolon).after hvalue
      refine ⟨hcanonical, _, ?_, Nat.max_lt.2 ⟨hk', hk⟩, hspans.after (hmember.trans hspans')⟩
      simp only [Met.nesting, Option.getD_some] at hle ⊢
      omega
    · obtain ⟨cs₃, hcolon, h⟩ := bind_eq_ok_iff.1 h
      obtain ⟨cs₄, hskip, h⟩ := bind_eq_ok_iff.1 h
      obtain ⟨hcanonical, k, hle, hk, hspans'⟩ := readMembers_sound h hdepth hm
      have hmember := (Json.spans_readColon hcolon).after (Json.spans_skipValue hskip)
      exact ⟨hcanonical, k, hle, hk, (hspans.after hmember).after hspans'⟩

theorem readList_sound : ∀ {fuel depth : Nat} {cs rest : List Char} {ns : List Node},
    readList fuel depth cs = .ok (ns, rest) →
    EveryArgumentsIn Canonical ns ∧
      ∃ k, Json.nestingItems (listToJson ns) ≤ k ∧ k < depth ∧ Spans k cs rest
  | 0, _, _, _, _, h => by
    rw [readList] at h
    cases h
  | fuel + 1, depth, cs, rest, ns, h => by
    rw [readList] at h
    split at h
    · cases h
    next c cs' hskip =>
    have hblank := Json.spans_skipBlank hskip
    split at h
    · next hlist =>
      rw [eq_of_beq hlist] at hblank
      split at h
      · cases h
      · cases h
      next depth hne =>
      obtain ⟨⟨ns', cs₁⟩, hns, h⟩ := bind_eq_ok_iff.1 h
      obtain ⟨cs₂, hend, h⟩ := bind_eq_ok_iff.1 h
      cases h
      obtain ⟨hcanonical, k, hle, hk, hspans⟩ := readNodes_sound hns (Nat.pos_of_ne_zero hne)
      exact ⟨hcanonical, k + 1, hle, Nat.succ_lt_succ hk,
        hblank.after (hspans.before (Json.spans_endList hend)).list⟩
    · cases h

theorem readNodes_sound : ∀ {fuel depth : Nat} {first : Bool} {cs rest : List Char}
    {ns : List Node}, readNodes fuel depth first cs = .ok (ns, rest) → 0 < depth →
    EveryArgumentsIn Canonical ns ∧
      ∃ k, Json.nestingItems (listToJson ns) ≤ k + 1 ∧ k < depth ∧ Spans k cs rest
  | 0, _, _, _, _, _, h, _ => by
    rw [readNodes] at h
    cases h
  | fuel + 1, depth, first, cs, rest, ns, h, hdepth => by
    rw [readNodes] at h
    obtain ⟨⟨more, cs₁⟩, hnext, h⟩ := bind_eq_ok_iff.1 h
    have hspans := Json.spans_nextItem hnext
    dsimp only at h
    split at h
    · cases h
      exact ⟨trivial, 0, Nat.zero_le _, hdepth, hspans⟩
    obtain ⟨⟨n, cs₂⟩, hn, h⟩ := bind_eq_ok_iff.1 h
    obtain ⟨⟨ns', cs₃⟩, hns, h⟩ := bind_eq_ok_iff.1 h
    cases h
    obtain ⟨hcanonical, k, hle, hk, hnode⟩ := read_sound hn
    obtain ⟨hcanonical', k', hle', hk', hnodes⟩ := readNodes_sound hns hdepth
    refine ⟨⟨hcanonical, hcanonical'⟩, _, ?_, Nat.max_lt.2 ⟨hk, hk'⟩,
      hspans.after (hnode.trans hnodes)⟩
    simp only [listToJson, Json.nestingItems]
    omega

end

theorem parse_eq_ok {s : String} {n : Node} (h : parse s = .ok n) :
    n.EveryArguments Canonical ∧ n.toJson.nesting ≤ 128 ∧
      n.toJson.nesting ≤ Json.textNesting s + 1 := by
  rw [parse] at h
  split at h
  · next m heq =>
    cases h
    obtain ⟨⟨m, rest⟩, hread, hend⟩ := bind_eq_ok_iff.1 heq
    obtain ⟨_, _, h⟩ := bind_eq_ok_iff.1 hend
    cases h
    obtain ⟨hcanonical, k, hle, hk, hspans⟩ := read_sound hread
    have hdeep := hspans 0
    refine ⟨hcanonical, Nat.le_trans hle hk, Nat.le_trans hle ?_⟩
    unfold Json.textNesting
    omega
  · cases h

/-- A program that was read and is written again is nested one level deeper than the text it came
    from, at most, and it is only for that level that it may be refused. -/
theorem reencoding {s : String} {n : Node} (h : parse s = .ok n)
    (hf : n.EveryArguments Json.Fractionless) :
    Json.textNesting n.text ≤ Json.textNesting s + 1 ∧ Json.textNesting n.text ≤ 128 ∧
    (Json.textNesting n.text ≤ 127 → parse n.text = .ok n) ∧
    (Json.textNesting n.text = 128 → parse n.text = .error (.malformedProgram .tooDeep)) := by
  obtain ⟨hcanonical, hlimit, htext⟩ := parse_eq_ok h
  have hparse := parse_text ((hcanonical.and hf).mono fun _ hv => hv.1.exact hv.2)
  rw [textNesting_text]
  refine ⟨htext, hlimit, fun hle => ?_, fun hmax => ?_⟩
  · rw [hparse, if_pos hle]
  · rw [hparse, if_neg (by omega)]

/-! ## Nodes in one another -/

/-- Nodes that each have one child, `height` of them, around one that has none. -/
def tower : Nat → Node
  | 0 => { func := "a" }
  | height + 1 => { func := "a", children := [tower height] }

/-- The same program without the members that need not be written. -/
def briefTower : Nat → Json
  | 0 => .object [("func", .string "a")]
  | height + 1 => .object [("func", .string "a"), ("children", .array [briefTower height])]

theorem everyArguments_tower {P : Json → Prop} (h : P .null) (height : Nat) :
    (tower height).EveryArguments P := by
  induction height with
  | zero => exact ⟨h, trivial⟩
  | succ height ih => exact ⟨h, ih, trivial⟩

theorem nesting_tower (height : Nat) : (tower height).toJson.nesting = 2 * height + 2 := by
  induction height with
  | zero => rfl
  | succ height ih =>
    rw [nesting_toJson]
    simp only [tower, listToJson, Json.nestingItems, Json.nesting, ih]
    omega

theorem starts_briefTower (height : Nat) : (briefTower height).Starts := by
  cases height <;> exact ⟨_, _, rfl, rfl, by decide⟩

theorem length_briefTower (height : Nat) : 2 * height ≤ (briefTower height).write.length := by
  induction height with
  | zero => exact Nat.zero_le _
  | succ height ih =>
    simp [briefTower, Json.write, Json.writeMembers, Json.writeItems]
    omega

theorem read_briefTower (height fuel depth : Nat) (rest : List Char) :
    read (fuel + 5 * height + 3) (depth + 2 * height + 2) ((briefTower height).write ++ rest) =
      .ok (tower height, rest) := by
  induction height generalizing fuel rest with
  | zero =>
    rw [briefTower, Json.write_object_append, read_object,
      readMembers_func (fuel + 1) _ _ rfl, readMembers_nil]
    rfl
  | succ height ih =>
    have hchildren (rest : List Char) :
        readList (fuel + 5 * height + 3 + 2) (depth + 2 * height + 2 + 1)
          (Json.write (.array [briefTower height]) ++ rest) = .ok ([tower height], rest) := by
      rw [Json.write_array_append, readList_array, readNodes_cons _ _ _ (starts_briefTower height),
        ih]
      change (readNodes (fuel + 5 * height + 2 + 1) _ _ _ >>= _) >>= _ = _
      rw [readNodes_nil]
      rfl
    have hfuel : fuel + 5 * (height + 1) + 3 = fuel + 5 * height + 3 + 2 + 1 + 1 + 1 := by omega
    have hdepth : depth + 2 * (height + 1) + 2 = depth + 2 * height + 2 + 2 := by omega
    rw [hfuel, hdepth, briefTower, Json.write_object_append, read_object,
      readMembers_func _ _ _ rfl, readMembers_children _ _ _ rfl, hchildren]
    change ((readMembers (fuel + 5 * height + 4 + 1) _ _ _ _ >>= _) : Except Json.ReadError _) = _
    rw [readMembers_nil]
    rfl

theorem parse_briefTower {height : Nat} (h : height ≤ 63) :
    parse (briefTower height).compact = .ok (tower height) := by
  have hlength := length_briefTower height
  obtain ⟨fuel, hfuel⟩ : ∃ fuel,
      2 * Json.fuelFor (briefTower height).write = fuel + 5 * height + 3 :=
    ⟨2 * Json.fuelFor (briefTower height).write - (5 * height + 3), by
      unfold Json.fuelFor
      omega⟩
  obtain ⟨depth, hdepth⟩ : ∃ depth, Json.depthLimit = depth + 2 * height + 2 :=
    ⟨Json.depthLimit - (2 * height + 2), by
      unfold Json.depthLimit
      omega⟩
  have hread := read_briefTower height fuel depth []
  rw [← hfuel, ← hdepth, List.append_nil] at hread
  rw [parse, Json.compact, String.toList_ofList, hread]
  rfl

theorem reencoding_tower_62 :
    parse (briefTower 62).compact = .ok (tower 62) ∧
    (tower 62).EveryArguments Json.Fractionless ∧ parse (tower 62).text = .ok (tower 62) := by
  have hparse : parse (briefTower 62).compact = .ok (tower 62) := parse_briefTower (by decide)
  have hf : (tower 62).EveryArguments Json.Fractionless := everyArguments_tower trivial 62
  refine ⟨hparse, hf, (reencoding hparse hf).2.2.1 ?_⟩
  rw [textNesting_text, nesting_tower]
  decide

/-- One node more, and the program is read from the brief text only. -/
theorem not_reencoding_tower_63 :
    parse (briefTower 63).compact = .ok (tower 63) ∧
    (tower 63).EveryArguments Json.Fractionless ∧
    parse (tower 63).text = .error (.malformedProgram .tooDeep) := by
  have hexact : (tower 63).EveryArguments Json.Exact := everyArguments_tower trivial 63
  refine ⟨parse_briefTower (by decide), everyArguments_tower trivial 63, ?_⟩
  rw [parse_text hexact, nesting_tower]
  rfl

end NetProbe.Node
