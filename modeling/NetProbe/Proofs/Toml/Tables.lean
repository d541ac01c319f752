import NetProbe.Proofs.Toml.Lines
set_option autoImplicit false

/-! # Tables of assignments

A header and the assignments below it make one table of the document, whatever tables stand before
it: `ofStatements_tables`. Names and keys must not be repeated, for a document may not say twice
what one of them stands for. -/

namespace NetProbe.Toml

variable {key : String} {ms : Members}

namespace Members

theorem find?_eq_none (h : key ∉ ms.map (·.1)) : ms.find? key = none := by
  have hnone : List.find? (fun m => m.1 == key) ms = none :=
    List.find?_eq_none.2 fun m hm hkey => h (List.mem_map.2 ⟨m, hm, beq_iff_eq.1 hkey⟩)
  rw [find?, hnone, Option.map_none]

theorem find?_append_singleton (h : key ∉ ms.map (·.1)) (item : Item) :
    find? (ms ++ [(key, item)]) key = some item := by
  have hnone := Option.map_eq_none_iff.1 (find?_eq_none h)
  rw [find?, List.find?_append, hnone, Option.none_or, List.find?_singleton, beq_self_eq_true,
    if_pos rfl, Option.map_some]

theorem replace_append_singleton (h : key ∉ ms.map (·.1)) (old new : Item) :
    replace (ms ++ [(key, old)]) key new = ms ++ [(key, new)] := by
  have hold : ms.map (fun m => if m.1 == key then (key, new) else m) = ms := by
    refine (List.map_congr_left fun m hm => ?_).trans (List.map_id ms)
    have hne : m.1 ≠ key := fun hkey => h (List.mem_map.2 ⟨m, hm, hkey⟩)
    rw [if_neg (mt beq_iff_eq.1 hne), id]
  rw [replace, List.map_append, hold, List.map_singleton, beq_self_eq_true, if_pos rfl]

end Members

/-! ## One table -/

/-- The statements of a table: its header and an assignment for each member. -/
def tableStatements (t : String × List (String × Toml)) : List Statement :=
  .open [] t.1 :: t.2.map fun m => .assign [] m.1 m.2

/-- The members of a table that holds nothing but values. -/
def valueItems (members : List (String × Toml)) : Members :=
  members.map fun m => (m.1, .value m.2)

/-- An assignment adds to the table that was opened last. -/
theorem add_assign {name : String} {inner : Members} (hname : name ∉ ms.map (·.1))
    (hkey : key ∉ inner.map (·.1)) (v : Toml) :
    Draft.add ⟨ms ++ [(name, .table .header inner)], [name]⟩ (.assign [] key v) =
      some ⟨ms ++ [(name, .table .header (inner ++ [(key, .value v)]))], [name]⟩ := by
  have hassign : Members.assign [] key v .header inner = some (inner ++ [(key, .value v)]) := by
    have hnone := Members.find?_eq_none hkey
    simp [Members.assign, Members.change, Members.assignKey, hnone]
  have hchange : Members.change false [name] (Members.assign [] key v) .header
      (ms ++ [(name, .table .header inner)]) =
        some (ms ++ [(name, .table .header (inner ++ [(key, .value v)]))]) := by
    simp only [Members.change, Members.find?_append_singleton hname, Bool.false_eq_true, false_and,
      if_false, hassign, Option.map_some, Members.replace_append_singleton hname]
  rw [Draft.add, hchange]
  rfl

theorem foldlM_assign {name : String} {members : List (String × Toml)}
    (hname : name ∉ ms.map (·.1)) (inner : Members)
    (hkeys : (inner.map (·.1) ++ members.map (·.1)).Nodup) :
    (members.map fun m => Statement.assign [] m.1 m.2).foldlM Draft.add
        ⟨ms ++ [(name, .table .header inner)], [name]⟩ =
      some ⟨ms ++ [(name, .table .header (inner ++ valueItems members))], [name]⟩ := by
  -- `inner` holds what the assignments before gave to the table that is open.
  induction members generalizing inner with
  | nil => simp [valueItems]
  | cons m members ih =>
    have hkey : m.1 ∉ inner.map (·.1) := fun hmem =>
      (List.nodup_append.1 hkeys).2.2 _ hmem _ List.mem_cons_self rfl
    have hrest := ih (inner ++ [(m.1, .value m.2)]) (by simpa using hkeys)
    rw [List.map_cons, List.foldlM_cons, add_assign hname hkey]
    simpa [valueItems] using hrest

/-- A table is added at the end of the document. -/
theorem foldlM_tableStatements {d : Draft} {t : String × List (String × Toml)}
    (hname : t.1 ∉ d.members.map (·.1)) (hkeys : (t.2.map (·.1)).Nodup) :
    (tableStatements t).foldlM Draft.add d =
      some ⟨d.members ++ [(t.1, .table .header (valueItems t.2))], [t.1]⟩ := by
  have hopen : Draft.add d (.open [] t.1) =
      some ⟨d.members ++ [(t.1, .table .header [])], [t.1]⟩ := by
    rw [Draft.add, Members.change, Members.openTable, Members.find?_eq_none hname]
    rfl
  rw [tableStatements, List.foldlM_cons, hopen]
  exact foldlM_assign hname [] hkeys

/-! ## Documents -/

/-- The value of a key that stands only once is found. -/
theorem find?_of_mem {members : List (String × Toml)} (hkeys : (members.map (·.1)).Nodup)
    {m : String × Toml} (hm : m ∈ members) : Toml.find? m.1 members = some m.2 := by
  induction members with
  | nil => cases hm
  | cons n members ih =>
    obtain ⟨hfresh, hrest⟩ := List.nodup_cons.1 hkeys
    rcases List.mem_cons.1 hm with rfl | hm
    · rw [Toml.find?, List.find?_cons_of_pos (by simp), Option.map_some]
    · have hne : n.1 ≠ m.1 := fun h => hfresh (List.mem_map.2 ⟨m, hm, h.symm⟩)
      rw [Toml.find?, List.find?_cons_of_neg (by simp [hne])]
      exact ih hrest hm

theorem foldlM_tables {d : Draft} {tables : List (String × List (String × Toml))}
    (hnames : (d.members.map (·.1) ++ tables.map (·.1)).Nodup)
    (hkeys : ∀ t ∈ tables, (t.2.map (·.1)).Nodup) :
    ((tables.flatMap tableStatements).foldlM Draft.add d).map (·.members) =
      some (d.members ++ tables.map fun t => (t.1, .table .header (valueItems t.2))) := by
  induction tables generalizing d with
  | nil => simp
  | cons t tables ih =>
    have hname : t.1 ∉ d.members.map (·.1) := fun hmem =>
      (List.nodup_append.1 hnames).2.2 _ hmem _ List.mem_cons_self rfl
    obtain ⟨ht, hrest⟩ := List.forall_mem_cons.1 hkeys
    rw [List.flatMap_cons, List.foldlM_append, foldlM_tableStatements hname ht]
    have hmembers := ih (d := ⟨d.members ++ [(t.1, .table .header (valueItems t.2))], [t.1]⟩)
      (by simpa using hnames) hrest
    simpa using hmembers

theorem membersToToml_eq_map (ms : Members) :
    membersToToml ms = ms.map fun m => (m.1, m.2.toToml) := by
  induction ms with
  | nil => rw [membersToToml, List.map_nil]
  | cons m ms ih => rw [membersToToml, ih, List.map_cons]

theorem membersToToml_valueItems (members : List (String × Toml)) :
    membersToToml (valueItems members) = members := by
  simp [membersToToml_eq_map, valueItems, Function.comp_def, Item.toToml]

/-- A document of tables has the members that its tables were written from. -/
theorem ofStatements_tables {tables : List (String × List (String × Toml))}
    (hnames : (tables.map (·.1)).Nodup) (hkeys : ∀ t ∈ tables, (t.2.map (·.1)).Nodup) :
    ofStatements (tables.flatMap tableStatements) =
      some (tables.map fun t => (t.1, .table t.2)) := by
  obtain ⟨d, hd, hmembers⟩ := Option.map_eq_some_iff.1 (foldlM_tables (d := {}) hnames hkeys)
  rw [ofStatements, hd, Option.bind_eq_bind, Option.bind_some, hmembers]
  simp [membersToToml_eq_map (List.map _ _), Item.toToml, membersToToml_valueItems]

end NetProbe.Toml
