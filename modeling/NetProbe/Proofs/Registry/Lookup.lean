import Mathlib.Data.List.Nodup
import NetProbe.Program.Standard
set_option autoImplicit false

/-! # What a registry finds

A name is found where its template was registered last: `find?_register` for one template and
`find?_registerAll` for several. From this follow which templates a registry can find at all,
`mem_or_mem_of_find?`, and that the standard registry finds each of its templates under its name. -/

namespace NetProbe

namespace Registry

theorem find?_insert (t : Template) (ts : List Template) (name : String) :
    (insert t ts).find? (fun u => u.name == name)
      = if t.name = name then some t else ts.find? (fun u => u.name == name) := by
  induction ts with
  | nil => by_cases h : t.name = name <;> simp [insert, h]
  | cons u rest ih =>
    rw [insert]
    split
    · by_cases h : t.name = name <;> simp [h]
    · split
      · next heq =>
        by_cases h : t.name = name
        · simp [h]
        · have hu : u.name ≠ name := fun hu => h (heq.trans hu)
          simp [h, hu]
      · next hne =>
        by_cases hu : u.name = name
        · have h : t.name ≠ name := fun h => hne (h.trans hu.symm)
          simp [hu, h]
        · simp only [List.find?_cons, beq_eq_false_iff_ne.2 hu, ih]

theorem find?_register (r : Registry) (t : Template) (name : String) :
    (r.register t).find? name = if t.name = name then some t else r.find? name :=
  find?_insert t r.templates name

theorem registerAll_cons (r : Registry) (t : Template) (ts : List Template) :
    r.registerAll (t :: ts) = (r.register t).registerAll ts := rfl

/-- What was registered later comes first. -/
theorem find?_registerAll (r : Registry) (ts : List Template) (name : String) :
    (r.registerAll ts).find? name
      = (ts.reverse.find? fun t => t.name == name).or (r.find? name) := by
  induction ts generalizing r with
  | nil => simp [registerAll]
  | cons t ts ih =>
    rw [registerAll_cons, ih, find?_register, List.reverse_cons, List.find?_append]
    by_cases h : t.name = name <;> simp [h]

theorem name_of_find? {r : Registry} {name : String} {t : Template}
    (h : r.find? name = some t) : t.name = name := by
  simpa using List.find?_some h

/-- A template that is found was registered now or before. -/
theorem mem_or_find?_of_find? {r : Registry} {ts : List Template} {name : String} {t : Template}
    (h : (r.registerAll ts).find? name = some t) :
    t ∈ ts ∨ (r.find? name = some t ∧ ∀ u ∈ ts, u.name ≠ name) := by
  rw [find?_registerAll] at h
  cases hf : ts.reverse.find? (fun t => t.name == name) with
  | some u =>
    rw [hf, Option.some_or, Option.some.injEq] at h
    exact .inl (h ▸ List.mem_reverse.1 (List.mem_of_find?_eq_some hf))
  | none =>
    rw [hf, Option.none_or] at h
    refine .inr ⟨h, fun u hu hname => ?_⟩
    have := List.find?_eq_none.1 hf u (List.mem_reverse.2 hu)
    exact this (beq_iff_eq.2 hname)

/-- Templates with other names do not get in the way. -/
theorem find?_registerAll_of_forall_ne {r : Registry} {ts : List Template} {name : String}
    (h : ∀ t ∈ ts, t.name ≠ name) : (r.registerAll ts).find? name = r.find? name := by
  have hnone : ts.reverse.find? (fun t => t.name == name) = none := by
    rw [List.find?_eq_none]
    intro t ht
    simpa using h t (List.mem_reverse.1 ht)
  rw [find?_registerAll, hnone, Option.none_or]

/-! ## The standard registry -/

theorem mem_standard_of_find? {name : String} {t : Template}
    (h : standard.find? name = some t) : t ∈ Template.standard := by
  rcases mem_or_find?_of_find? h with h | ⟨h, -⟩
  · exact h
  · cases h

theorem standard_names_nodup : (Template.standard.map Template.name).Nodup := by decide

/-- The standard registry finds each of its templates. -/
theorem find?_standard {t : Template} (h : t ∈ Template.standard) :
    standard.find? t.name = some t := by
  have hmem : t ∈ Template.standard.reverse := List.mem_reverse.2 h
  cases hf : Template.standard.reverse.find? (fun u => u.name == t.name) with
  | none => exact absurd (List.find?_eq_none.1 hf t hmem) (by simp)
  | some u =>
    have hu : u ∈ Template.standard := List.mem_reverse.1 (List.mem_of_find?_eq_some hf)
    have hname : u.name = t.name := by simpa using List.find?_some hf
    have : u = t := List.inj_on_of_nodup_map standard_names_nodup hu h hname
    rw [standard, find?_registerAll, hf, this, Option.some_or]

theorem knows_standard {t : Template} (h : t ∈ Template.standard) :
    standard.knows t.name = true := by
  rw [knows, find?_standard h]
  rfl

/-- A template under a name of its own hides none of the standard ones. -/
theorem name_ne_of_knows_eq_false {t u : Template} (ht : standard.knows t.name = false)
    (hu : u ∈ Template.standard) : t.name ≠ u.name := by
  intro h
  rw [h, knows_standard hu] at ht
  cases ht

/-! ## Compiling -/

theorem compile_of_find? {r : Registry} {n : Node} {t : Template} (h : r.find? n.func = some t) :
    r.compile n = t.compile r.knows n (r.compileChildren n.children) := by
  obtain ⟨func, arguments, children⟩ := n
  rw [compile, h]

theorem compile_of_find?_eq_none {r : Registry} {n : Node} (h : r.find? n.func = none) :
    r.compile n = .refuse (.unknownOperation n.func) := by
  obtain ⟨func, arguments, children⟩ := n
  rw [compile, h]

theorem compileChildren_eq_map (r : Registry) (ns : List Node) :
    r.compileChildren ns = ns.map fun n => { func := n.func, compiled := r.compile n } := by
  induction ns with
  | nil => rfl
  | cons n rest ih => rw [compileChildren, ih, List.map_cons]

end Registry

end NetProbe
