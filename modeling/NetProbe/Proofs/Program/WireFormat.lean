import Mathlib.Data.List.Permutation
import NetProbe.Json.Access
import NetProbe.Program.NodeReader
import NetProbe.Proofs.Json.Members
import NetProbe.Proofs.Json.Verbatim
set_option autoImplicit false

/-! # The wire format of programs

A program is an object with a text under `func`, perhaps arguments and children, which are programs
again, and any other members: `Json.node?`. The reader takes the members in any order, whatever the
text looks like. It also takes a list of the fields in their order where the format has an object,
and the programs that it reads are those of the format as long as no list does: `parse_eq_ok_iff`.

The reader of programs is compared with the reader of values on the same text, token by token
(`read_eq`). Objects are compared by the members that were met so far (`foldlM_add?`). -/

namespace NetProbe.Json

/-! ## Programs as values -/

/-- The node with these fields: the name of the operation, its arguments and its children. -/
def nodeOf? : Option Json → Option Json → Option (List Node) → Option Node
  | some (.string func), arguments, some children =>
    some { func, arguments := arguments.getD .null, children }
  | _, _, _ => none

mutual

/-- The program that a value spells. In the format it is an object; `lists` says whether a list of
    the fields in their order may stand for one. -/
def node? (lists : Bool) : Json → Option Node
  | .object members =>
    nodeOf? ((Json.object members).get? "func") ((Json.object members).get? "arguments")
      (childrenIn? lists members)
  | .array items => if lists then fields? items else none
  | _ => none

/-- The node of a list of its fields. Those at the end may be left out. -/
def fields? : List Json → Option Node
  | [func] => nodeOf? (some func) none (some [])
  | [func, arguments] => nodeOf? (some func) (some arguments) (some [])
  | [func, arguments, children] => nodeOf? (some func) (some arguments) (nodeList? true children)
  | _ => none

/-- The programs under `children`, or none if nothing stands there. -/
def childrenIn? (lists : Bool) : List (String × Json) → Option (List Node)
  | [] => some []
  | (key, v) :: rest => if key = "children" then nodeList? lists v else childrenIn? lists rest

/-- The programs in a list of them. -/
def nodeList? (lists : Bool) : Json → Option (List Node)
  | .array items => nodes? lists items
  | _ => none

def nodes? (lists : Bool) : List Json → Option (List Node)
  | [] => some []
  | v :: rest => (node? lists v).bind fun n => (nodes? lists rest).map (n :: ·)

end

theorem nodeOf?_of_text? {func : Json} (h : func.text? = none) (arguments : Option Json)
    (children : Option (List Node)) : nodeOf? (some func) arguments children = none := by
  cases func with
  | string s => cases h
  | _ => rfl

theorem nodeOf?_none (func arguments : Option Json) : nodeOf? func arguments none = none := by
  cases func with
  | none => rfl
  | some func => cases func <;> rfl

theorem nodeOf?_eq_some_iff {func arguments : Option Json} {children : Option (List Node)}
    {n : Node} : nodeOf? func arguments children = some n ↔
      func = some (.string n.func) ∧ arguments.getD .null = n.arguments ∧
        children = some n.children := by
  obtain ⟨func', arguments', children'⟩ := n
  unfold nodeOf?
  split
  · simp
  · next hne =>
    refine iff_of_false (fun h => by cases h) ?_
    rintro ⟨hfunc, -, hchildren⟩
    exact hne _ _ hfunc hchildren

theorem childrenIn?_eq (lists : Bool) (members : List (String × Json)) :
    childrenIn? lists members =
      match (Json.object members).get? "children" with
      | some v => nodeList? lists v
      | none => some [] := by
  induction members with
  | nil => rfl
  | cons m members ih =>
    rw [childrenIn?, get?_cons]
    by_cases hkey : m.1 = "children"
    · rw [if_pos hkey, if_pos hkey]
    · rw [if_neg hkey, if_neg hkey, ih]

/-- Only what stands under its three keys counts for a node. -/
theorem node?_object (lists : Bool) (members : List (String × Json)) :
    node? lists (.object members) =
      nodeOf? ((Json.object members).get? "func") ((Json.object members).get? "arguments")
        (match (Json.object members).get? "children" with
          | some v => nodeList? lists v
          | none => some []) := by
  rw [node?, childrenIn?_eq]

theorem text?_eq_some_iff {v : Json} {s : String} : v.text? = some s ↔ v = .string s := by
  cases v <;> simp [text?]

theorem fields?_of_text? {func : Json} (h : func.text? = none) (items : List Json) :
    fields? (func :: items) = none := by
  rcases items with _ | ⟨arguments, _ | ⟨children, _ | ⟨more, items⟩⟩⟩
  · exact nodeOf?_of_text? h _ _
  · exact nodeOf?_of_text? h _ _
  · exact nodeOf?_of_text? h _ _
  · rfl

theorem fields?_of_nodeList? {children : Json} (h : children.nodeList? true = none)
    (func arguments : Json) (items : List Json) :
    fields? (func :: arguments :: children :: items) = none := by
  cases items with
  | nil => rw [fields?, h, nodeOf?_none]
  | cons v items => rfl

mutual

/-- Whether no list stands in the place of a program. -/
def Unlisted : Json → Prop
  | .array _ => False
  | .object members => UnlistedIn members
  | _ => True

def UnlistedIn : List (String × Json) → Prop
  | [] => True
  | (key, v) :: rest => if key = "children" then UnlistedUnder v else UnlistedIn rest

def UnlistedUnder : Json → Prop
  | .array items => UnlistedItems items
  | _ => True

def UnlistedItems : List Json → Prop
  | [] => True
  | v :: rest => Unlisted v ∧ UnlistedItems rest

end

mutual

/-- A program is in the format when no list stands for an object in it. -/
theorem node?_false_iff : ∀ {v : Json} {n : Node},
    node? false v = some n ↔ node? true v = some n ∧ v.Unlisted
  | .object members, n => by
    rw [node?, node?, Unlisted, nodeOf?_eq_some_iff, nodeOf?_eq_some_iff, childrenIn?_false_iff,
      and_assoc, and_assoc]
  | .array _, _ => iff_of_false (fun h => by cases h) fun h => h.2
  | .null, _ | .bool _, _ | .number _, _ | .string _, _ => (and_iff_left trivial).symm

theorem childrenIn?_false_iff : ∀ {members : List (String × Json)} {ns : List Node},
    childrenIn? false members = some ns ↔ childrenIn? true members = some ns ∧ UnlistedIn members
  | [], _ => (and_iff_left trivial).symm
  | (key, v) :: rest, ns => by
    rw [childrenIn?, childrenIn?, UnlistedIn]
    by_cases hkey : key = "children"
    · rw [if_pos hkey, if_pos hkey, if_pos hkey]
      exact nodeList?_false_iff
    · rw [if_neg hkey, if_neg hkey, if_neg hkey]
      exact childrenIn?_false_iff

theorem nodeList?_false_iff : ∀ {v : Json} {ns : List Node},
    nodeList? false v = some ns ↔ nodeList? true v = some ns ∧ v.UnlistedUnder
  | .array _, _ => nodes?_false_iff
  | .null, _ | .bool _, _ | .number _, _ | .string _, _ | .object _, _ =>
    (and_iff_left trivial).symm

theorem nodes?_false_iff : ∀ {items : List Json} {ns : List Node},
    nodes? false items = some ns ↔ nodes? true items = some ns ∧ UnlistedItems items
  | [], _ => (and_iff_left trivial).symm
  | v :: rest, ns => by
    simp only [nodes?, UnlistedItems, Option.bind_eq_some_iff, Option.map_eq_some_iff]
    constructor
    · rintro ⟨n, hn, ms, hms, rfl⟩
      obtain ⟨hn, hv⟩ := node?_false_iff.1 hn
      obtain ⟨hms, hrest⟩ := nodes?_false_iff.1 hms
      exact ⟨⟨n, hn, ms, hms, rfl⟩, hv, hrest⟩
    · rintro ⟨⟨n, hn, ms, hms, rfl⟩, hv, hrest⟩
      exact ⟨n, node?_false_iff.2 ⟨hn, hv⟩, ms, nodes?_false_iff.2 ⟨hms, hrest⟩, rfl⟩

end

end NetProbe.Json

namespace NetProbe.Node

open Json (readVerbatim readVerbatimItems readVerbatimMembers DistinctKeys)

/-! ## Members as they are met -/

/-- What becomes of the members that were met when the reader comes to another one. -/
def Met.add? (m : Met) : String × Json → Option Met
  | (key, v) =>
    if key = "func" then
      if m.func.isSome then none else v.text?.map fun func => { m with func := some func }
    else if key = "arguments" then
      if m.arguments.isSome then none else some { m with arguments := some v }
    else if key = "children" then
      if m.children.isSome then none
      else (v.nodeList? true).map fun children => { m with children := some children }
    else some m

/-- The node of the members is told by what stands under its three keys, in whatever order they
    come, if no key comes twice. -/
theorem foldlM_add? {members : List (String × Json)} (hkeys : DistinctKeys members) {m : Met}
    (hfunc : m.func ≠ none → "func" ∉ members.map Prod.fst)
    (harguments : m.arguments ≠ none → "arguments" ∉ members.map Prod.fst)
    (hchildren : m.children ≠ none → "children" ∉ members.map Prod.fst) :
    ((members.foldlM Met.add? m).bind fun m => m.node.toOption) =
      Json.nodeOf? (((Json.object members).get? "func").or (m.func.map .string))
        (((Json.object members).get? "arguments").or m.arguments)
        (match (Json.object members).get? "children" with
          | some v => v.nodeList? true
          | none => some (m.children.getD [])) := by
  induction members generalizing m with
  | nil =>
    rw [List.foldlM_nil, Json.get?_nil, Json.get?_nil, Json.get?_nil]
    cases hm : m.func with
    | none => simp [Met.node, hm, Json.nodeOf?, Except.toOption]
    | some func => simp [Met.node, hm, Json.nodeOf?, Except.toOption]
  | cons member members ih =>
    obtain ⟨key, v⟩ := member
    obtain ⟨hkey, hrest⟩ := List.nodup_cons.1 hkeys
    rw [List.map_cons, List.mem_cons, not_or] at hfunc harguments hchildren
    have hfunc' := fun h => (hfunc h).2
    have harguments' := fun h => (harguments h).2
    have hchildren' := fun h => (hchildren h).2
    rw [List.foldlM_cons, Json.get?_cons, Json.get?_cons, Json.get?_cons, Met.add?]
    by_cases hf : key = "func"
    · subst hf
      have hnone : m.func = none := by
        by_contra h
        exact (hfunc h).1 rfl
      rw [if_pos rfl, if_pos rfl, hnone, if_neg (by decide : ¬(none : Option String).isSome = true),
        if_neg (by decide), if_neg (by decide)]
      cases v with
      | string func =>
        refine (ih (m := { m with func := some func }) hrest (fun _ => hkey) harguments'
          hchildren').trans ?_
        rw [Json.get?_eq_none_iff.2 hkey]
        rfl
      | _ => exact (Json.nodeOf?_of_text? rfl _ _).symm
    rw [if_neg hf, if_neg hf]
    by_cases ha : key = "arguments"
    · subst ha
      have hnone : m.arguments = none := by
        by_contra h
        exact (harguments h).1 rfl
      rw [if_pos rfl, if_pos rfl, hnone, if_neg (by decide : ¬(none : Option Json).isSome = true),
        if_neg (by decide)]
      refine (ih (m := { m with arguments := some v }) hrest hfunc' (fun _ => hkey)
        hchildren').trans ?_
      rw [Json.get?_eq_none_iff.2 hkey]
      rfl
    rw [if_neg ha, if_neg ha]
    by_cases hc : key = "children"
    · subst hc
      have hnone : m.children = none := by
        by_contra h
        exact (hchildren h).1 rfl
      rw [if_pos rfl, if_pos rfl, hnone]
      dsimp only
      cases hv : v.nodeList? true with
      | none => exact (Json.nodeOf?_none _ _).symm
      | some children =>
        refine (ih (m := { m with children := some children }) hrest hfunc' harguments'
          fun _ => hkey).trans ?_
        rw [Json.get?_eq_none_iff.2 hkey]
        rfl
    rw [if_neg hc, if_neg hc]
    exact ih hrest hfunc' harguments' hchildren'

/-- So the program that an object spells is that of its members as they are met. -/
theorem node?_collapse_object {members : List (String × Json)} (hkeys : DistinctKeys members) :
    (Json.collapse (.object members)).node? true =
      ((Json.collapseMembers members).foldlM Met.add? {}).bind fun m => m.node.toOption := by
  have hdistinct : DistinctKeys (Json.collapseMembers members) := by
    rw [DistinctKeys, Json.keys_collapseMembers]
    exact hkeys
  have hget (k : String) := Json.get?_ofMembers (k := k) hdistinct
  rw [foldlM_add? hdistinct (m := {}) (fun h => absurd rfl h) (fun h => absurd rfl h)
    (fun h => absurd rfl h), Json.collapse]
  simp only [← hget]
  rw [Option.or_none, Option.map_none, Option.or_none]
  exact Json.node?_object _ _

/-! ## The reader of programs and the reader of values -/

section

variable {fuel depth : Nat} {cs mid rest : List Char}

theorem expectString_eq {v : Json} (h : readVerbatim fuel depth cs = .ok (v, rest)) :
    (Json.expectString cs).toOption = v.collapse.text?.map (·, rest) := by
  cases fuel with
  | zero => cases h
  | succ fuel =>
    cases Json.reads_of_readVerbatim h with
    | plain hstart hquote _ _ hv _ _ =>
      have htext : v.collapse.text? = none := by
        cases v with
        | null | bool | number => rfl
        | string | array | object => cases hv
      rw [htext, Json.expectString, hstart]
      split
      · next heq => cases heq
      · next heq => exact absurd (List.cons.inj heq).1 hquote
      · rfl
    | text hstart hread =>
      rw [Json.expectString, hstart]
      change (Json.readString _).toOption = _
      rw [hread]
      rfl
    | list hstart _ _ _ =>
      rw [Json.expectString, hstart]
      rfl
    | object hstart _ _ _ =>
      rw [Json.expectString, hstart]
      rfl

/-- A list ends where no further item was found. -/
theorem endList_of_nextItem_false {first : Bool} (h : Json.nextItem first cs = .ok (false, mid)) :
    Json.endList cs = Json.endList mid := by
  revert h
  fun_cases Json.nextItem first cs with
  | case2 c ds hstart hc =>
    intro h
    cases h
    rw [Json.endList, hstart, Json.endList, Json.skipBlank_of_eq_cons hstart]
  | _ =>
    intro h
    cases h

/-- A list does not end where a further item stands. -/
theorem endList_of_nextItem_true (h : Json.nextItem false cs = .ok (true, mid)) :
    (Json.endList cs).toOption = none := by
  revert h
  fun_cases Json.nextItem false cs with
  | case3 c ds hstart hc hfirst => cases hfirst
  | case6 c ds hstart hc hfirst hcomma d ds' hstart' hd =>
    intro _
    rw [Json.endList, hstart]
    dsimp only
    rw [if_neg hc, if_pos hcomma]
    split <;> rfl
  | _ =>
    intro h
    cases h

/-- The third item of a node that is written as a list is the last one. -/
theorem readThird_eq {more : Nat} {body : List Char} {v : Json} {vs : List Json}
    (hlist : (readList more depth body).toOption = (v.collapse.nodeList? true).map (·, cs))
    (hvs : readVerbatimItems fuel depth false cs = .ok (vs, mid))
    (hclose : Json.endList mid = .ok rest) (func : String) (arguments : Json) :
    (do
      let (n, rest) ← (do
        let (children, rest) ← readList more depth body
        return ({ func, arguments, children : Node }, rest))
      let rest ← Json.endList rest
      return (n, rest)).toOption =
      (Json.fields? (.string func :: arguments :: v.collapse :: Json.collapseItems vs)).map
        (·, rest) := by
  cases hchildren : readList more depth body with
  | error e =>
    rw [hchildren] at hlist
    rw [Json.fields?_of_nodeList? (Option.map_eq_none_iff.1 hlist.symm)]
    rfl
  | ok r =>
    rw [hchildren] at hlist
    obtain ⟨children, hsome, rfl⟩ := Option.map_eq_some_iff.1 hlist.symm
    change (Json.endList cs >>= _).toOption = _
    cases fuel with
    | zero => cases hvs
    | succ fuel =>
      rcases Json.readVerbatimItems_iff.1 hvs with
        ⟨rfl, hnext⟩ | ⟨v', vs, body, mid', rfl, hnext, -, -⟩
      · rw [endList_of_nextItem_false hnext, hclose, Json.collapseItems, Json.fields?, hsome]
        rfl
      · rw [toOption_bind, endList_of_nextItem_true hnext]
        rfl

end

mutual

/-- A program is read where a value is read that spells one, and it is the one that it spells. -/
theorem read_eq : ∀ {fuel more depth : Nat} {cs rest : List Char} {v : Json},
    readVerbatim fuel depth cs = .ok (v, rest) → v.Unrepeated → 2 * fuel ≤ more →
    (read more depth cs).toOption = (v.collapse.node? true).map (·, rest)
  | 0, _, _, _, _, _, h, _, _ => by cases h
  | fuel + 1, more, depth, cs, rest, v, h, hkeys, hle => by
    obtain ⟨more, rfl⟩ : ∃ k, more = k + 1 := ⟨more - 1, by omega⟩
    cases Json.reads_of_readVerbatim h with
    | plain hstart _ hlist hobject hv _ _ =>
      have hnode : v.collapse.node? true = none := by
        cases v with
        | null | bool | number => rfl
        | string | array | object => cases hv
      rw [hnode, read, hstart]
      dsimp only
      rw [if_neg (by simp [hlist]), if_neg (by simp [hobject])]
      rfl
    | text hstart _ =>
      rw [read, hstart]
      rfl
    | list hstart hdeep hread hclose =>
      rw [hdeep, read, hstart, Json.collapse, Json.node?]
      exact readPlaces_eq hread hclose hkeys (by omega)
    | object hstart hdeep hread hclose =>
      rw [hdeep, read, hstart, node?_collapse_object hkeys.1]
      change (readMembers _ _ _ _ _ >>= _).toOption = _
      rw [toOption_bind, readMembers_eq hread hkeys.2 (by omega)]
      cases (Json.collapseMembers _).foldlM Met.add? {} with
      | none => rfl
      | some m =>
        change (m.node >>= _).toOption = m.node.toOption.map _
        cases m.node with
        | error e => rfl
        | ok n =>
          change (Json.endObject _ >>= _).toOption = _
          rw [hclose]
          rfl

theorem readPlaces_eq : ∀ {fuel more depth : Nat} {cs mid rest : List Char} {items : List Json},
    readVerbatimItems fuel depth true cs = .ok (items, mid) → Json.endList mid = .ok rest →
    Json.EveryItem (fun _ => True) DistinctKeys items → 2 * fuel ≤ more →
    (do
      let (n, rest) ← readPlaces more depth cs
      let rest ← Json.endList rest
      return (n, rest)).toOption = (Json.fields? (Json.collapseItems items)).map (·, rest)
  | 0, _, _, _, _, _, _, h, _, _, _ => by cases h
  | fuel + 1, more, depth, cs, mid, rest, items, h, hclose, hkeys, hle => by
    obtain ⟨more, rfl⟩ : ∃ k, more = k + 1 := ⟨more - 1, by omega⟩
    rcases Json.readVerbatimItems_iff.1 h with
      ⟨rfl, hnext⟩ | ⟨v, vs, body, mid', rfl, hnext, hv, hvs⟩
    · rw [readPlaces, hnext]
      rfl
    · rw [readPlaces, hnext, ok_bind]
      dsimp only
      rw [if_neg (by decide), Json.collapseItems]
      have htext := expectString_eq hv
      cases hfunc : Json.expectString body with
      | error e =>
        rw [hfunc] at htext
        rw [Json.fields?_of_text? (Option.map_eq_none_iff.1 htext.symm)]
        rfl
      | ok r =>
        rw [hfunc] at htext
        obtain ⟨func, hstring, rfl⟩ := Option.map_eq_some_iff.1 htext.symm
        rw [Json.text?_eq_some_iff.1 hstring]
        change (Json.nextItem false mid' >>= _ >>= _).toOption = _
        cases fuel with
        | zero => cases hvs
        | succ fuel =>
        rcases Json.readVerbatimItems_iff.1 hvs with
          ⟨rfl, hnext⟩ | ⟨v₂, vs, body, mid₂, rfl, hnext, hv₂, hvs⟩
        · rw [hnext]
          change (Json.endList mid >>= _).toOption = _
          rw [hclose]
          rfl
        rw [hnext]
        change (Json.readValue more depth body >>= _ >>= _).toOption = _
        rw [Json.readValue_of_readVerbatim hv₂ (by omega)]
        change (Json.nextItem false mid₂ >>= _ >>= _).toOption = _
        cases fuel with
        | zero => cases hvs
        | succ fuel =>
        rcases Json.readVerbatimItems_iff.1 hvs with
          ⟨rfl, hnext⟩ | ⟨v₃, vs, body, mid₃, rfl, hnext, hv₃, hvs⟩
        · rw [hnext]
          change (Json.endList mid >>= _).toOption = _
          rw [hclose]
          rfl
        rw [hnext]
        change (readList more depth body >>= _ >>= _).toOption = _
        exact readThird_eq (readList_eq hv₃ hkeys.2.2.1 (by omega)) hvs hclose func _

/-- The members that are met are those of the object that is read. -/
theorem readMembers_eq : ∀ {fuel more depth : Nat} {first : Bool} {cs mid : List Char}
    {members : List (String × Json)} {m : Met},
    readVerbatimMembers fuel depth first cs = .ok (members, mid) →
    Json.EveryMember (fun _ => True) DistinctKeys members → 2 * fuel ≤ more →
    (readMembers more depth first m cs).toOption =
      ((Json.collapseMembers members).foldlM Met.add? m).map (·, mid)
  | 0, _, _, _, _, _, _, _, h, _, _ => by cases h
  | fuel + 1, more, depth, first, cs, mid, members, m, h, hkeys, hle => by
    obtain ⟨more, rfl⟩ : ∃ k, more = k + 1 := ⟨more - 1, by omega⟩
    rcases Json.readVerbatimMembers_iff.1 h with
      ⟨rfl, hnext⟩ | ⟨key, v, ms, body, colon, value, mid', rfl, hnext, hkey, hcolon, hv, hms⟩
    · rw [readMembers, hnext]
      rfl
    · rw [readMembers, hnext, ok_bind]
      change (Json.readString body >>= _).toOption = _
      rw [hkey, ok_bind, Json.collapseMembers, List.foldlM_cons, Met.add?]
      dsimp only
      simp only [beq_iff_eq]
      have hrest (m : Met) : (readMembers more depth false m mid').toOption =
          ((Json.collapseMembers ms).foldlM Met.add? m).map (·, mid) :=
        readMembers_eq hms hkeys.2 (by omega)
      by_cases hf : key = "func"
      · rw [if_pos hf, if_pos hf]
        cases hm : m.func with
        | some func => rfl
        | none =>
          change (Json.readColon colon >>= _).toOption = _
          rw [hcolon, ok_bind, toOption_bind, expectString_eq hv]
          cases v.collapse.text? with
          | none => rfl
          | some func => exact hrest _
      rw [if_neg hf, if_neg hf]
      by_cases ha : key = "arguments"
      · rw [if_pos ha, if_pos ha]
        cases hm : m.arguments with
        | some arguments => rfl
        | none =>
          change (Json.readColon colon >>= _).toOption = _
          rw [hcolon, ok_bind, Json.readValue_of_readVerbatim hv (by omega)]
          exact hrest _
      rw [if_neg ha, if_neg ha]
      by_cases hc : key = "children"
      · rw [if_pos hc, if_pos hc]
        cases hm : m.children with
        | some children => rfl
        | none =>
          change (Json.readColon colon >>= _).toOption = _
          rw [hcolon, ok_bind, toOption_bind, readList_eq hv hkeys.1 (by omega)]
          cases v.collapse.nodeList? true with
          | none => rfl
          | some children => exact hrest _
      rw [if_neg hc, if_neg hc]
      rw [hcolon, ok_bind, Json.skipValue_of_readVerbatim hv (by omega), ok_bind]
      exact hrest m

theorem readList_eq : ∀ {fuel more depth : Nat} {cs rest : List Char} {v : Json},
    readVerbatim fuel depth cs = .ok (v, rest) → v.Unrepeated → 2 * fuel ≤ more →
    (readList more depth cs).toOption = (v.collapse.nodeList? true).map (·, rest)
  | 0, _, _, _, _, _, h, _, _ => by cases h
  | fuel + 1, more, depth, cs, rest, v, h, hkeys, hle => by
    obtain ⟨more, rfl⟩ : ∃ k, more = k + 1 := ⟨more - 1, by omega⟩
    cases Json.reads_of_readVerbatim h with
    | plain hstart _ hlist _ hv _ _ =>
      have hnodes : v.collapse.nodeList? true = none := by
        cases v with
        | null | bool | number => rfl
        | string | array | object => cases hv
      rw [hnodes, readList, hstart]
      dsimp only
      rw [if_neg (by simp [hlist])]
      rfl
    | text hstart _ =>
      rw [readList, hstart]
      rfl
    | list hstart hdeep hread hclose =>
      rw [hdeep, readList, hstart, Json.collapse, Json.nodeList?]
      change (readNodes _ _ _ _ >>= _).toOption = _
      rw [toOption_bind, readNodes_eq hread hkeys (by omega)]
      cases Json.nodes? true (Json.collapseItems _) with
      | none => rfl
      | some ns =>
        change (Json.endList _ >>= _).toOption = _
        rw [hclose]
        rfl
    | object hstart _ _ _ =>
      rw [readList, hstart]
      rfl

theorem readNodes_eq : ∀ {fuel more depth : Nat} {first : Bool} {cs mid : List Char}
    {items : List Json}, readVerbatimItems fuel depth first cs = .ok (items, mid) →
    Json.EveryItem (fun _ => True) DistinctKeys items → 2 * fuel ≤ more →
    (readNodes more depth first cs).toOption =
      (Json.nodes? true (Json.collapseItems items)).map (·, mid)
  | 0, _, _, _, _, _, _, h, _, _ => by cases h
  | fuel + 1, more, depth, first, cs, mid, items, h, hkeys, hle => by
    obtain ⟨more, rfl⟩ : ∃ k, more = k + 1 := ⟨more - 1, by omega⟩
    rcases Json.readVerbatimItems_iff.1 h with
      ⟨rfl, hnext⟩ | ⟨v, vs, body, mid', rfl, hnext, hv, hvs⟩
    · rw [readNodes, hnext]
      rfl
    · rw [readNodes, hnext, ok_bind, Json.collapseItems, Json.nodes?]
      change (read more depth body >>= _).toOption = _
      rw [toOption_bind, read_eq hv hkeys.1 (by omega)]
      cases v.collapse.node? true with
      | none => rfl
      | some n =>
        change (readNodes more depth false mid' >>= _).toOption = _
        rw [toOption_bind, readNodes_eq hvs hkeys.2 (by omega)]
        cases Json.nodes? true (Json.collapseItems vs) <;> rfl

end

/-- The text of a value in which no object repeats a key is read as the program that it spells. -/
theorem parse_toOption {text : String} {v : Json} (h : Json.parse text = .ok v)
    (hkeys : Json.KeysOnce text) : (parse text).toOption = v.node? true := by
  obtain ⟨w, hw, hunrepeated⟩ := hkeys
  rw [Json.parse_eq, hw] at h
  cases h
  obtain ⟨⟨w, rest⟩, hread, hw⟩ := bind_eq_ok_iff.1 hw
  obtain ⟨_, hend, hw⟩ := bind_eq_ok_iff.1 hw
  cases hw
  have hnode := read_eq hread hunrepeated (Nat.le_refl _)
  rw [parse]
  dsimp only
  cases hn : read (2 * Json.fuelFor text.toList) Json.depthLimit text.toList with
  | error e =>
    rw [hn] at hnode
    rw [Option.map_eq_none_iff.1 hnode.symm]
    rfl
  | ok r =>
    rw [hn] at hnode
    obtain ⟨n, hsome, rfl⟩ := Option.map_eq_some_iff.1 hnode.symm
    rw [hsome, ok_bind]
    dsimp only
    rw [hend]
    rfl

/-- A text is read as the program that its value spells, where a list of the fields in their order
    may stand for an object. The programs in the format are those that are read of values in which
    no list does. -/
theorem parse_eq_ok_iff {text : String} {v : Json} (h : Json.parse text = .ok v)
    (hkeys : Json.KeysOnce text) (n : Node) :
    (parse text = .ok n ↔ v.node? true = some n) ∧
      (v.node? false = some n ↔ parse text = .ok n ∧ v.Unlisted) := by
  have hparse : parse text = .ok n ↔ v.node? true = some n := by
    rw [← toOption_eq_some_iff, parse_toOption h hkeys]
  refine ⟨hparse, ?_⟩
  rw [hparse]
  exact Json.node?_false_iff

theorem parse_eq_ok_of_nested_text :
    let text := "\x7b\"children\":[\x7b\"since\":[true],\"func\":\"a\"\x7d],\"func\":\"b\"\x7d"
    let v : Json :=
      .object [("children", .array [.object [("func", .string "a"),
        ("since", .array [.bool true])]]), ("func", .string "b")]
    let n : Node := { func := "b", children := [{ func := "a" }] }
    Json.parse text = .ok v ∧ Json.KeysOnce text ∧ v.node? false = some n ∧ parse text = .ok n := by
  have hv : Json.parse
      "\x7b\"children\":[\x7b\"since\":[true],\"func\":\"a\"\x7d],\"func\":\"b\"\x7d" =
      .ok (.object [("children", .array [.object [("func", .string "a"),
        ("since", .array [.bool true])]]), ("func", .string "b")]) := by cbv
  have hkeys : Json.KeysOnce
      "\x7b\"children\":[\x7b\"since\":[true],\"func\":\"a\"\x7d],\"func\":\"b\"\x7d" := by
    refine ⟨.object [("children", .array [.object [("since", .array [.bool true]),
      ("func", .string "a")]]), ("func", .string "b")], by cbv, ?_⟩
    simp only [Json.Unrepeated, Json.Everywhere, Json.EveryItem, Json.EveryMember, DistinctKeys]
    decide
  have hn : Json.node? false (.object [("children", .array [.object [("func", .string "a"),
      ("since", .array [.bool true])]]), ("func", .string "b")]) =
      some { func := "b", children := [{ func := "a" }] } := by cbv
  exact ⟨hv, hkeys, hn, ((parse_eq_ok_iff hv hkeys _).2.1 hn).1⟩

/-- A list of a name is not in the format, and it is read as the program that the name makes. -/
theorem parse_list_of_name :
    Json.parse "[\"tcp_connect\"]" = .ok (.array [.string "tcp_connect"]) ∧
      Json.KeysOnce "[\"tcp_connect\"]" ∧
      Json.node? false (.array [.string "tcp_connect"]) = none ∧
      parse "[\"tcp_connect\"]" = .ok { func := "tcp_connect" } := by
  have hkeys : Json.KeysOnce "[\"tcp_connect\"]" :=
    ⟨.array [.string "tcp_connect"], by cbv, trivial, trivial⟩
  exact ⟨by cbv, hkeys, by cbv, by cbv⟩

end NetProbe.Node
