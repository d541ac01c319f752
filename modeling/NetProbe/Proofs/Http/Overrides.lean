import NetProbe.Proofs.Http.SameRequest
set_option autoImplicit false

/-! # Headers that can be overridden

The values of five headers are decided in layers: an option that is given wins, also an empty one,
and otherwise the configuration or the connection tells the value. The headers of a planned request
are those values in a fixed order. An empty one is left out, but the host never is, and a value
with a line break is the only one that is refused (`Request.headers_of_plan`). -/

namespace NetProbe.Http

/-- The headers that a request may have, with the values that the options leave them. -/
def effectiveHeaders (a : HttpArguments) (d : HttpDefaults) (c : Connection) :
    List (String × String) :=
  [("Host", a.host.getD c.domain),
    ("Accept", a.accept.getD d.accept),
    ("Accept-Language", a.acceptLanguage.getD d.acceptLanguage),
    ("Referer", a.referer.getD ""),
    ("User-Agent", a.userAgent.getD d.userAgent)]

/-- Whether there is a carriage return or a line feed in a text. -/
def IsBroken (s : String) : Prop := '\r' ∈ s.toList ∨ '\n' ∈ s.toList

theorem hasLineBreak_iff (s : String) : hasLineBreak s = true ↔ IsBroken s := by
  simp only [hasLineBreak, IsBroken, List.any_eq_true, Bool.or_eq_true, beq_iff_eq, and_or_left,
    exists_or, exists_eq_right]

theorem hasLineBreak_eq_false_iff (s : String) : hasLineBreak s = false ↔ ¬ IsBroken s := by
  rw [← hasLineBreak_iff, Bool.not_eq_true]

/-! ## Which values are refused -/

/-- The induction is on the headers. An empty value is skipped, but there is no break in it. -/
theorem planOptional_eq_ok_iff (hs : List (String × String)) :
    (∃ out, planOptional hs = .ok out) ↔ ∀ h ∈ hs, ¬ IsBroken h.2 := by
  induction hs with
  | nil => simp [planOptional]
  | cons header hs ih =>
    obtain ⟨name, value⟩ := header
    rw [List.forall_mem_cons, planOptional, ← hasLineBreak_eq_false_iff]
    by_cases hempty : value.isEmpty = true
    · have hvalue : hasLineBreak value = false := by
        rw [String.isEmpty_iff.1 hempty]
        decide
      simp only [hempty, hvalue, if_true, true_and, ih]
    by_cases hbreak : hasLineBreak value = true
    · simp [hempty, hbreak]
    · simp only [hempty, hbreak, Bool.false_eq_true, if_false, exists_map_eq_ok_iff, ih, true_and]

section

variable (a : HttpArguments) (d : HttpDefaults) (c : Connection)

/-- The host is apart from the headers that may be left out. -/
theorem effectiveHeaders_eq :
    effectiveHeaders a d c = ("Host", a.host.getD c.domain) :: optionalHeaders a d := rfl

theorem planHeaders_eq_ok_iff :
    (∃ hs, planHeaders a d c = .ok hs) ↔ ∀ h ∈ effectiveHeaders a d c, ¬ IsBroken h.2 := by
  rw [effectiveHeaders_eq, List.forall_mem_cons, planHeaders, ← hasLineBreak_eq_false_iff,
    ← planOptional_eq_ok_iff]
  by_cases hbreak : hasLineBreak (a.host.getD c.domain) = true
  · simp [hbreak]
  · simp only [hbreak, Bool.false_eq_true, if_false, exists_map_eq_ok_iff, true_and]

theorem planHeaders_eq_error_iff :
    (∃ e, planHeaders a d c = .error e) ↔ ∃ h ∈ effectiveHeaders a d c, IsBroken h.2 := by
  rw [exists_error_iff, planHeaders_eq_ok_iff]
  simp only [not_forall, not_not, exists_prop]

/-! ## Which values are sent -/

/-- Whether headers are those that the options leave. -/
structure FollowsOverrides (hs : List (String × String)) : Prop where
  /-- An empty value is left out, if it is not that of the host. -/
  kept : hs = (effectiveHeaders a d c).filter fun h => h.1 = "Host" ∨ h.2 ≠ ""
  /-- So empty values are left out, if there is a host. -/
  nonempty : a.host.getD c.domain ≠ "" →
    hs = (effectiveHeaders a d c).filter fun h => h.2 ≠ ""
  unbroken : ∀ h ∈ effectiveHeaders a d c, ¬ IsBroken h.2

variable {a d c}

theorem followsOverrides_of_planHeaders {hs : List (String × String)}
    (h : planHeaders a d c = .ok hs) : FollowsOverrides a d c hs := by
  obtain ⟨hlist, -⟩ := planHeaders_ok h
  have hoptional : (optionalHeaders a d).filter (fun h => !h.2.isEmpty) =
      (optionalHeaders a d).filter fun h => h.2 ≠ "" := by
    refine List.filter_congr fun h _ => ?_
    rw [Bool.eq_iff_iff]
    simp
  have hother : (optionalHeaders a d).filter (fun h => h.1 = "Host" ∨ h.2 ≠ "") =
      (optionalHeaders a d).filter fun h => h.2 ≠ "" := by
    apply List.filter_congr
    simp [optionalHeaders]
  refine ⟨?_, ?_, (planHeaders_eq_ok_iff a d c).1 ⟨hs, h⟩⟩
  · rw [hlist, effectiveHeaders_eq, List.filter_cons_of_pos (by simp), hother, hoptional]
  · intro hhost
    rw [hlist, effectiveHeaders_eq, List.filter_cons_of_pos (by simpa using hhost), hoptional]

end

namespace Request

/-- What is planned follows the overrides, and with a token for a method and a URL the only reason
    why there is no request is a broken value. So it is for every URL, however it is made. -/
theorem headers_of_plan (a : HttpArguments) (d : HttpDefaults) (c : Connection) :
    (∀ r, plan a d c = .ok r → FollowsOverrides a d c r.headers) ∧
    (∀ url, isToken (a.method.getD "GET") = true → planUrl a c = .ok url →
      ((∃ e, plan a d c = .error e) ↔ ∃ h ∈ effectiveHeaders a d c, IsBroken h.2)) ∧
    (∀ hs, planHeaders a d c = .ok hs → FollowsOverrides a d c hs) ∧
    ((∃ e, planHeaders a d c = .error e) ↔ ∃ h ∈ effectiveHeaders a d c, IsBroken h.2) := by
  refine ⟨?_, ?_, fun hs h => followsOverrides_of_planHeaders h, planHeaders_eq_error_iff a d c⟩
  · intro r hplan
    obtain ⟨-, -, -, hheaders⟩ := plan_ok hplan
    exact followsOverrides_of_planHeaders hheaders
  · intro url hmethod hurl
    rw [planUrl] at hurl
    rw [← planHeaders_eq_error_iff, exists_error_iff, exists_error_iff, plan, planWith]
    simp only [hmethod, hurl, Bool.not_true, Bool.false_eq_true, if_false, exists_map_eq_ok_iff]

/-- The browser's name is left out on request, and a language with a line break is refused. -/
theorem headers_of_plan_layers :
    let a : HttpArguments := { userAgent := some "", referer := some "https://a.example/" }
    let d : HttpDefaults := { userAgent := "probe", accept := "text/html", acceptLanguage := "" }
    let broken : HttpDefaults := { d with acceptLanguage := "en\r\nX: y" }
    let c := connectionTo "www.example.com"
    let r : Request := {
      method := "GET"
      url := Url.withPath { scheme := .https, host := .name "www.example.com" } "/"
      headers := [("Host", "www.example.com"), ("Accept", "text/html"),
        ("Referer", "https://a.example/")] }
    plan a d c = .ok r ∧ FollowsOverrides a d c r.headers ∧ ∃ e, plan a broken c = .error e := by
  intro a d broken c r
  have hnamed : Url.Host.named? "www.example.com" = some (.name "www.example.com") := by decide
  have hplan : plan a d c = .ok r :=
    @plan_of_named a d c .https (.name "www.example.com") _ (by decide) (by decide) hnamed
      (by decide)
  obtain ⟨-, hmethod, hurl, -⟩ := plan_ok hplan
  refine ⟨hplan, (headers_of_plan a d c).1 r hplan, ?_⟩
  refine ((headers_of_plan a broken c).2.1 r.url hmethod hurl).2 ?_
  exact ⟨("Accept-Language", "en\r\nX: y"), by decide, .inl (by decide)⟩

/-- An empty host is sent as an empty header and not left out. -/
theorem headers_keep_empty_host :
    let a : HttpArguments := { host := some "" }
    let d : HttpDefaults := { userAgent := "probe", accept := "", acceptLanguage := "" }
    let c := connectionTo "www.example.com"
    let r := firstPage "www.example.com" ""
    plan a d c = .ok r ∧ r.headers = [("Host", ""), ("User-Agent", "probe")] ∧
      r.headers ≠ (effectiveHeaders a d c).filter fun h => h.2 ≠ "" := by
  intro a d c r
  have hplan : plan a d c = .ok r :=
    @plan_of_named a d c .https (.name "www.example.com") _ (by decide) (by decide) (by decide)
      (by decide)
  exact ⟨hplan, rfl, by decide⟩

end Request

end NetProbe.Http
