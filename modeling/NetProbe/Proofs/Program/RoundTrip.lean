import NetProbe.Program.NodeReader
import NetProbe.Proofs.Json.Nesting
import NetProbe.Proofs.Json.RoundTrip
set_option autoImplicit false

/-! # Programs are read back

A program whose arguments hold no fractions is read back from its text exactly, if lists and objects
stand at most 127 deep in that text, and otherwise refused for its depth: `text_round_trip`. Each
node of the program takes two levels, its object and the list of its children. -/

namespace NetProbe.Node

open Json (admitted admitted_bind admitted_bind_ok admitted_succ admitted_zero itemsText
  membersText)

mutual

/-- Whether the arguments of every node of a program have a property. -/
def EveryArguments (P : Json → Prop) : Node → Prop
  | ⟨_, arguments, children⟩ => P arguments ∧ EveryArgumentsIn P children

def EveryArgumentsIn (P : Json → Prop) : List Node → Prop
  | [] => True
  | n :: rest => EveryArguments P n ∧ EveryArgumentsIn P rest

end

mutual

theorem EveryArguments.mono {P Q : Json → Prop} (hPQ : ∀ v, P v → Q v) :
    ∀ {n : Node}, n.EveryArguments P → n.EveryArguments Q
  | ⟨_, _, _⟩, h => ⟨hPQ _ h.1, EveryArgumentsIn.mono hPQ h.2⟩

theorem EveryArgumentsIn.mono {P Q : Json → Prop} (hPQ : ∀ v, P v → Q v) :
    ∀ {ns : List Node}, EveryArgumentsIn P ns → EveryArgumentsIn Q ns
  | [], _ => trivial
  | _ :: _, h => ⟨h.1.mono hPQ, EveryArgumentsIn.mono hPQ h.2⟩

end

mutual

theorem EveryArguments.and {P Q : Json → Prop} :
    ∀ {n : Node}, n.EveryArguments P → n.EveryArguments Q → n.EveryArguments fun v => P v ∧ Q v
  | ⟨_, _, _⟩, h, h' => ⟨⟨h.1, h'.1⟩, EveryArgumentsIn.and h.2 h'.2⟩

theorem EveryArgumentsIn.and {P Q : Json → Prop} :
    ∀ {ns : List Node}, EveryArgumentsIn P ns → EveryArgumentsIn Q ns →
    EveryArgumentsIn (fun v => P v ∧ Q v) ns
  | [], _, _ => trivial
  | _ :: _, h, h' => ⟨h.1.and h'.1, EveryArgumentsIn.and h.2 h'.2⟩

end

/-! ## One step of the reader -/

theorem read_object (fuel depth : Nat) (cs : List Char) :
    read (fuel + 1) (depth + 2) ('{' :: cs) = (do
      let (m, rest) ← readMembers fuel (depth + 1) true {} cs
      let n ← m.node
      let rest ← Json.endObject rest
      return (n, rest)) := by
  rw [read]
  rfl

theorem readList_array (fuel depth : Nat) (cs : List Char) :
    readList (fuel + 1) (depth + 2) ('[' :: cs) = (do
      let (ns, rest) ← readNodes fuel (depth + 1) true cs
      let rest ← Json.endList rest
      return (ns, rest)) := by
  rw [readList]
  rfl

theorem readNodes_nil (fuel depth : Nat) (first : Bool) (rest : List Char) :
    readNodes (fuel + 1) depth first (itemsText first [] ++ ']' :: rest) =
      .ok ([], ']' :: rest) := by
  rw [readNodes, Json.nextItem_nil]
  rfl

theorem readNodes_cons (fuel depth : Nat) (first : Bool) {v : Json} (hv : v.Starts)
    (items : List Json) (rest : List Char) :
    readNodes (fuel + 1) depth first (itemsText first (v :: items) ++ rest) = (do
      let (n, rest) ← read fuel depth (v.write ++ (itemsText false items ++ rest))
      let (ns, rest) ← readNodes fuel depth false rest
      return (n :: ns, rest)) := by
  rw [readNodes, Json.nextItem_cons first hv]
  rfl

theorem readMembers_nil (fuel depth : Nat) (first : Bool) (m : Met) (rest : List Char) :
    readMembers (fuel + 1) depth first m (membersText first [] ++ '}' :: rest) =
      .ok (m, '}' :: rest) := by
  rw [readMembers, Json.nextKey_nil]
  rfl

theorem readMembers_func (fuel depth : Nat) (first : Bool) {m : Met} (hm : m.func = none)
    (func : String) (members : List (String × Json)) (rest : List Char) :
    readMembers (fuel + 1) depth first m
        (membersText first (("func", .string func) :: members) ++ '}' :: rest) =
      readMembers fuel depth false { m with func := some func }
        (membersText false members ++ '}' :: rest) := by
  obtain ⟨body, hkey, hread⟩ :=
    Json.nextKey_cons first "func" (.string func) members ('}' :: rest)
  obtain ⟨text, htext, hfunc⟩ :=
    Json.readString_writeString func (membersText false members ++ '}' :: rest)
  rw [Json.write, htext] at hread
  rw [readMembers, hkey]
  change (Json.readString body >>= _) = _
  rw [hread]
  change (once "func" m.func >>= fun _ => Json.readString text >>= _) = _
  rw [hm, hfunc]
  rfl

theorem readMembers_arguments (fuel depth : Nat) (first : Bool) {m : Met} (hm : m.arguments = none)
    (arguments : Json) (members : List (String × Json)) (rest : List Char) :
    readMembers (fuel + 1) depth first m
        (membersText first (("arguments", arguments) :: members) ++ '}' :: rest) = (do
      let (arguments, rest) ←
        Json.readValue fuel depth (arguments.write ++ (membersText false members ++ '}' :: rest))
      readMembers fuel depth false { m with arguments := some arguments } rest) := by
  obtain ⟨body, hkey, hread⟩ := Json.nextKey_cons first "arguments" arguments members ('}' :: rest)
  rw [readMembers, hkey]
  change (Json.readString body >>= _) = _
  rw [hread]
  change (once "arguments" m.arguments >>= _) = _
  rw [hm]
  rfl

theorem readMembers_children (fuel depth : Nat) (first : Bool) {m : Met} (hm : m.children = none)
    (children : Json) (members : List (String × Json)) (rest : List Char) :
    readMembers (fuel + 1) depth first m
        (membersText first (("children", children) :: members) ++ '}' :: rest) = (do
      let (children, rest) ←
        readList fuel depth (children.write ++ (membersText false members ++ '}' :: rest))
      readMembers fuel depth false { m with children := some children } rest) := by
  obtain ⟨body, hkey, hread⟩ := Json.nextKey_cons first "children" children members ('}' :: rest)
  rw [readMembers, hkey]
  change (Json.readString body >>= _) = _
  rw [hread]
  change (once "children" m.children >>= _) = _
  rw [hm]
  rfl

/-! ## Whole programs -/

/-- The members of a node in the order in which they are written. -/
def fields (n : Node) : List (String × Json) :=
  [("func", .string n.func), ("arguments", n.arguments),
    ("children", .array (listToJson n.children))]

theorem toJson_eq (n : Node) : n.toJson = .object n.fields := by
  obtain ⟨func, arguments, children⟩ := n
  rw [toJson, fields]

theorem starts (n : Node) : n.toJson.Starts := by
  rw [toJson_eq]
  exact ⟨_, _, rfl, rfl, by decide⟩

theorem nesting_toJson (n : Node) :
    n.toJson.nesting =
      max n.arguments.nesting (Json.nestingItems (listToJson n.children) + 1) + 1 := by
  rw [toJson_eq]
  simp only [fields, Json.nesting, Json.nestingMembers, Nat.zero_max, Nat.max_zero]

theorem length_write (n : Node) :
    n.arguments.write.length + (itemsText true (listToJson n.children)).length + 9 ≤
      n.toJson.write.length := by
  rw [toJson_eq]
  simp only [fields, itemsText, Json.write, Json.writeMembers, Json.writeString, List.length_append,
    List.length_cons, List.length_nil, Bool.true_or, if_true]
  omega

theorem write_append (n : Node) (rest : List Char) :
    n.toJson.write ++ rest = '{' :: (membersText true n.fields ++ '}' :: rest) := by
  rw [toJson_eq, Json.write_object_append]

theorem readList_itemsText {ns : List Node} {fuel depth : Nat} {rest : List Char}
    (h : ∀ depth, 0 < depth →
      readNodes fuel depth true (itemsText true (listToJson ns) ++ ']' :: rest) =
        admitted (Json.nestingItems (listToJson ns)) depth (ns, ']' :: rest))
    (hdepth : 0 < depth) :
    readList (fuel + 1) depth (Json.write (.array (listToJson ns)) ++ rest) =
      admitted (Json.nestingItems (listToJson ns) + 1) depth (ns, rest) := by
  rw [Json.write_array_append]
  match depth, hdepth with
  | 1, _ =>
    rw [readList]
    rfl
  | depth + 2, _ =>
    rw [readList_array, h _ (Nat.succ_pos depth), admitted_succ]
    exact admitted_bind_ok rfl

theorem readMembers_fields {n : Node} {fuel depth : Nat} {rest : List Char}
    (harguments : ∀ rest, Json.Ends rest →
      Json.readValue (fuel + 2) depth (n.arguments.write ++ rest) =
        admitted n.arguments.nesting depth (n.arguments, rest))
    (hchildren : ∀ rest,
      readList (fuel + 1) depth (Json.write (.array (listToJson n.children)) ++ rest) =
        admitted (Json.nestingItems (listToJson n.children) + 1) depth (n.children, rest)) :
    readMembers (fuel + 4) depth true {} (membersText true n.fields ++ '}' :: rest) =
      admitted (max n.arguments.nesting (Json.nestingItems (listToJson n.children) + 1)) depth
        ({ func := some n.func, arguments := some n.arguments, children := some n.children },
          '}' :: rest) := by
  rw [fields, readMembers_func _ _ _ rfl, readMembers_arguments _ _ _ rfl,
    harguments _ (Json.ends_membersText _ _)]
  refine admitted_bind ((readMembers_children _ _ _ rfl _ _ _).trans ?_)
  rw [hchildren]
  exact admitted_bind_ok (readMembers_nil _ _ _ _ _)

mutual

/-- The induction is on the program, with the list of the children. -/
theorem read_write : ∀ {n : Node}, n.EveryArguments Json.Exact →
    ∀ {fuel depth : Nat} {rest : List Char}, n.toJson.write.length ≤ fuel → 0 < depth →
    read fuel depth (n.toJson.write ++ rest) = admitted n.toJson.nesting depth (n, rest)
  | n, _, 0, _, _, hfuel, _ => by
    have := n.starts.length_pos
    omega
  | n, _, _ + 1, 1, _, _, _ => by
    rw [write_append, read, nesting_toJson]
    rfl
  | ⟨func, arguments, children⟩, h, fuel + 1, depth + 2, rest, hfuel, _ => by
    have hlength := length_write ⟨func, arguments, children⟩
    simp only at hlength
    obtain ⟨fuel, rfl⟩ : ∃ k, fuel = k + 4 := ⟨fuel - 4, by omega⟩
    have harguments : ∀ rest, Json.Ends rest →
        Json.readValue (fuel + 2) (depth + 1) (arguments.write ++ rest) =
          admitted arguments.nesting (depth + 1) (arguments, rest) := fun rest hrest =>
      Json.readValue_write h.1 (by omega) (Nat.succ_pos depth) hrest
    have hchildren : ∀ rest,
        readList (fuel + 1) (depth + 1) (Json.write (.array (listToJson children)) ++ rest) =
          admitted (Json.nestingItems (listToJson children) + 1) (depth + 1) (children, rest) :=
      fun rest => readList_itemsText
        (fun depth hdepth => readNodes_itemsText h.2 true (by omega) hdepth) (Nat.succ_pos depth)
    rw [write_append, read_object,
      readMembers_fields (n := ⟨func, arguments, children⟩) harguments hchildren, nesting_toJson,
      admitted_succ]
    exact admitted_bind_ok rfl

theorem readNodes_itemsText : ∀ {ns : List Node}, EveryArgumentsIn Json.Exact ns →
    ∀ (first : Bool) {fuel depth : Nat} {rest : List Char},
    (itemsText first (listToJson ns)).length < fuel → 0 < depth →
    readNodes fuel depth first (itemsText first (listToJson ns) ++ ']' :: rest) =
      admitted (Json.nestingItems (listToJson ns)) depth (ns, ']' :: rest)
  | _, _, _, 0, _, _, hfuel, _ => absurd hfuel (Nat.not_lt_zero _)
  | [], _, first, fuel + 1, depth, rest, _, hdepth => by
    rw [listToJson, readNodes_nil]
    exact (admitted_zero hdepth).symm
  | n :: ns, h, first, fuel + 1, depth, rest, hfuel, hdepth => by
    have hlength : n.toJson.write.length + (itemsText false (listToJson ns)).length <
        fuel + 1 := by
      refine Nat.lt_of_le_of_lt ?_ hfuel
      cases first <;> simp [listToJson, itemsText, Json.writeItems_cons]
    have hpos := n.starts.length_pos
    have hn : read fuel depth (n.toJson.write ++
        (itemsText false (listToJson ns) ++ ']' :: rest)) =
        admitted n.toJson.nesting depth (n, itemsText false (listToJson ns) ++ ']' :: rest) :=
      read_write h.1 (by omega) hdepth
    have hns : readNodes fuel depth false (itemsText false (listToJson ns) ++ ']' :: rest) =
        admitted (Json.nestingItems (listToJson ns)) depth (ns, ']' :: rest) :=
      readNodes_itemsText h.2 false (by omega) hdepth
    rw [listToJson, readNodes_cons _ _ _ n.starts, hn]
    refine admitted_bind ?_
    dsimp only
    rw [hns]
    exact admitted_bind_ok rfl

end

theorem textNesting_text (n : Node) : Json.textNesting n.text = n.toJson.nesting :=
  Json.textNesting_compact n.toJson

theorem parse_text {n : Node} (h : n.EveryArguments Json.Exact) :
    parse n.text =
      if n.toJson.nesting ≤ 127 then .ok n else .error (.malformedProgram .tooDeep) := by
  have hfuel : n.toJson.write.length ≤ 2 * Json.fuelFor n.toJson.write := by
    unfold Json.fuelFor
    omega
  have hread : read (2 * Json.fuelFor n.toJson.write) Json.depthLimit (n.toJson.write ++ []) =
      admitted n.toJson.nesting Json.depthLimit (n, []) := read_write h hfuel (by decide)
  rw [List.append_nil] at hread
  rw [parse, text, Json.compact, String.toList_ofList, hread, admitted]
  by_cases hle : n.toJson.nesting ≤ 127
  · have hlt : n.toJson.nesting < Json.depthLimit := Nat.lt_succ_of_le hle
    rw [if_pos hle, if_pos hlt]
    rfl
  · have hlt : ¬ n.toJson.nesting < Json.depthLimit := fun h => hle (Nat.le_of_lt_succ h)
    rw [if_neg hle, if_neg hlt]
    rfl

/-- The program is all that its text holds: it is read back as it was written, or it is too deep for
    the reader. -/
theorem text_round_trip {n : Node}
    (h : n.EveryArguments fun arguments => arguments.Canonical ∧ arguments.Fractionless) :
    (Json.textNesting n.text ≤ 127 → parse n.text = .ok n) ∧
    (127 < Json.textNesting n.text → parse n.text = .error (.malformedProgram .tooDeep)) ∧
    ∀ m, parse n.text = .ok m → m = n ∧ m.text = n.text := by
  have hparse := parse_text (h.mono fun _ hv => hv.1.exact hv.2)
  rw [textNesting_text]
  refine ⟨fun hle => ?_, fun hlt => ?_, fun m hm => ?_⟩
  · rw [hparse, if_pos hle]
  · rw [hparse, if_neg (Nat.not_le.2 hlt)]
  · rw [hparse] at hm
    split at hm
    · cases hm
      exact ⟨rfl, rfl⟩
    · cases hm

theorem text_round_trip_of_nested_arguments :
    let n : Node :=
      { func := "a\n\"\x00é", arguments := .object [("b", .array [.number (.whole (-(2 ^ 63)))]),
          ("c", .object [("", .number (.whole (2 ^ 64 - 1))), ("\\", .null)])],
        children := [{ func := "" }, { func := "d", arguments := .bool true }] }
    n.EveryArguments (fun arguments => arguments.Canonical ∧ arguments.Fractionless) ∧
    parse n.text = .ok n := by
  intro n
  have h : n.EveryArguments fun arguments => arguments.Canonical ∧ arguments.Fractionless := by
    simp only [n, EveryArguments, EveryArgumentsIn, Json.Canonical, Json.Fractionless,
      Json.Everywhere, Json.EveryItem, Json.EveryMember, Json.InRange, Json.IsWhole, Json.Ascending]
    decide
  have hnesting : Json.textNesting n.text = 4 := by
    rw [textNesting_text]
    rfl
  exact ⟨h, (text_round_trip h).1 (by rw [hnesting]; decide)⟩

end NetProbe.Node
