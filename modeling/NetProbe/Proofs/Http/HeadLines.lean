import NetProbe.Proofs.Http.SameRequest
set_option autoImplicit false

/-! # Nothing gets into a head

Options, configured values and the measured domain are put into the head of a request as they are.
Still the head has one line for the request, one for each header and no other, and each of them
comes apart into what was put into it (`Request.head_of_plan`). -/

namespace NetProbe.Http

open RequestHead (IsWord startLine fieldLine)

namespace Request

/-- The lines of a head: one with three words, one for each header, and an empty one that nothing
    follows. There is no break in a line, and no other byte of one between them. -/
structure HasLines (r : Request) (start : List Char) (fields : List (List Char)) : Prop where
  lines : splitBreaks r.head.toList = start :: (fields ++ [[], []])
  unbroken : ∀ line ∈ start :: fields, '\r' ∉ line ∧ '\n' ∉ line
  words : splitChars ' ' start = [r.method.toList, r.url.target.toList, "HTTP/1.1".toList]
  headers : fields.map splitField = r.headers.map fun h => some (h.1.toList, h.2.toList)
  returns : (Text.toBytes r.head).count 13 = r.headers.length + 2
  feeds : (Text.toBytes r.head).count 10 = r.headers.length + 2

/-- A character that is in no line is in the head once for each break. -/
theorem count_head {r : Request} {c : Char} (hc : ['\r', '\n'].count c = 1)
    (hstart : c ∉ startLine r) (hfields : ∀ h ∈ r.headers, c ∉ fieldLine h) :
    r.head.toList.count c = r.headers.length + 2 := by
  have hheaders : ∀ hs : List (String × String), (∀ h ∈ hs, c ∉ fieldLine h) →
      (hs.flatMap fun h => fieldLine h ++ ['\r', '\n']).count c = hs.length := by
    intro hs
    induction hs with
    | nil => exact fun _ => rfl
    | cons h hs ih =>
      intro hno
      obtain ⟨hh, hhs⟩ := List.forall_mem_cons.1 hno
      rw [List.flatMap_cons, List.count_append, List.count_append, List.count_eq_zero.2 hh, hc,
        ih hhs, List.length_cons]
      omega
  have hhead : r.head.toList = startLine r ++ (['\r', '\n'] ++
      (r.headers.flatMap (fun h => fieldLine h ++ ['\r', '\n']) ++ ['\r', '\n'])) :=
    RequestHead.toList_head r
  rw [hhead, List.count_append, List.count_append, List.count_append, List.count_eq_zero.2 hstart,
    hc, hheaders r.headers hfields]
  omega

variable {a : HttpArguments} {d : HttpDefaults} {c : Connection} {r : Request}

theorem hasLines (hmethod : isToken r.method = true) (htarget : IsWord r.url.target.toList)
    (hheaders : planHeaders a d c = .ok r.headers) :
    r.HasLines (startLine r) (r.headers.map fieldLine) := by
  obtain ⟨-, hvalues⟩ := planHeaders_ok hheaders
  have hnames := isToken_of_planHeaders hheaders
  have hstart := RequestHead.startLine_unbroken hmethod htarget
  have hfields : ∀ h ∈ r.headers, '\r' ∉ fieldLine h ∧ '\n' ∉ fieldLine h := fun h hh =>
    RequestHead.fieldLine_unbroken (hnames h hh) (hvalues h hh)
  constructor
  case lines => exact RequestHead.splitBreaks_head hstart.1 fun h hh => (hfields h hh).1
  case unbroken => exact List.forall_mem_cons.2 ⟨hstart, List.forall_mem_map.2 hfields⟩
  case words => exact RequestHead.splitChars_startLine hmethod htarget
  case headers =>
    rw [List.map_map]
    exact List.map_congr_left fun h hh => RequestHead.splitField_fieldLine (hnames h hh)
  case returns =>
    exact (Text.count_toBytes (c := '\r') (by decide) r.head).trans
      (count_head (by decide) hstart.1 fun h hh => (hfields h hh).1)
  case feeds =>
    exact (Text.count_toBytes (c := '\n') (by decide) r.head).trans
      (count_head (by decide) hstart.2 fun h hh => (hfields h hh).2)

/-- A planned request is read back from the lines of its head: its method, its target and its
    headers, in their order. Of its URL it only matters that its path and its query have no spaces
    and no line breaks in them, so it would be the same with a URL that was made in another way. -/
theorem head_of_plan (a : HttpArguments) (d : HttpDefaults) (c : Connection) :
    (∀ r, plan a d c = .ok r → ∃ start fields, r.HasLines start fields) ∧
    ∀ url headers, isToken (a.method.getD "GET") = true → planHeaders a d c = .ok headers →
      IsWord url.target.toList →
      ∃ start fields, HasLines ⟨a.method.getD "GET", url, headers⟩ start fields := by
  constructor
  · intro r hplan
    obtain ⟨-, hmethod, -, hheaders⟩ := plan_ok hplan
    have htarget := RequestHead.isWord_of_isVisible (isReadable_of_plan hplan).target
    exact ⟨_, _, hasLines hmethod htarget hheaders⟩
  · intro url headers hmethod hheaders htarget
    exact ⟨_, _, hasLines (r := ⟨_, url, headers⟩) hmethod htarget hheaders⟩

/-- A path with a line break and spaces, and values with colons. -/
theorem head_of_plan_separators :
    let a : HttpArguments := {
      host := some "a: b", urlPath := some "/c d\r\nHost: e", referer := some "f: g\t" }
    let d : HttpDefaults := { userAgent := "é: ", accept := "", acceptLanguage := "" }
    let r : Request := {
      method := "GET"
      url := Url.withPath { scheme := .https, host := .name "www.example.com" } "/c d\r\nHost: e"
      headers := [("Host", "a: b"), ("Referer", "f: g\t"), ("User-Agent", "é: ")] }
    let c := connectionTo "www.example.com"
    plan a d c = .ok r ∧ planHeaders a d c = .ok r.headers ∧ IsWord r.url.target.toList ∧
      ∃ start fields, r.HasLines start fields := by
  intro a d r c
  have hheaders : planHeaders a d c = .ok r.headers := by decide
  have hplan : plan a d c = .ok r :=
    @plan_of_named a d c .https (.name "www.example.com") _ (by decide) (by decide) (by decide)
      hheaders
  have htarget : IsWord r.url.target.toList :=
    RequestHead.isWord_of_isVisible (isReadable_of_plan hplan).target
  obtain ⟨start, fields, hlines⟩ := (head_of_plan a d c).1 r hplan
  exact ⟨hplan, hheaders, htarget, start, fields, hlines⟩

end Request

end NetProbe.Http
