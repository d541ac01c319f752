import NetProbe.Http.Request
import NetProbe.Proofs.Results
import NetProbe.Proofs.Text.Parts
import NetProbe.Proofs.Url.Target
set_option autoImplicit false

/-! # Heads of requests read back

Whatever options a request is planned from, its head is read as that request and nothing else: its
lines, the words of the first one and the names and values of the others are those that were put
together (`RequestHead.read?_head`). -/

namespace NetProbe.Http

open Url (IsVisibleAscii)

/-! ## Planning -/

theorem planUrlWith_ok {lib : Url.Library} {a : HttpArguments} {c : Connection} {u : Url}
    (h : planUrlWith lib a c = .ok u) :
    ∃ v, lib.parse (urlText a c) = .ok v ∧ u = lib.withPath v (a.urlPath.getD "/") := by
  rw [planUrlWith] at h
  split at h
  · cases h
  next v hv =>
  exact ⟨v, hv, (Except.ok.inj h).symm⟩

theorem planOptional_ok {hs out : List (String × String)} (h : planOptional hs = .ok out) :
    out = hs.filter (fun h => !h.2.isEmpty) ∧ ∀ h ∈ out, hasLineBreak h.2 = false := by
  induction hs generalizing out with
  | nil =>
    obtain rfl := Except.ok.inj h
    exact ⟨rfl, nofun⟩
  | cons header hs ih =>
    obtain ⟨name, value⟩ := header
    rw [planOptional] at h
    split at h
    · next hempty =>
      obtain ⟨hout, hvalues⟩ := ih h
      exact ⟨by simpa [hempty] using hout, hvalues⟩
    next hempty =>
    split at h
    · cases h
    next hbreak =>
    obtain ⟨more, hmore, rfl⟩ := map_eq_ok_iff.1 h
    obtain ⟨hout, hvalues⟩ := ih hmore
    exact ⟨by simp [hempty, ← hout], List.forall_mem_cons.2 ⟨Bool.not_eq_true _ ▸ hbreak, hvalues⟩⟩

theorem planHeaders_ok {a : HttpArguments} {d : HttpDefaults} {c : Connection}
    {hs : List (String × String)} (h : planHeaders a d c = .ok hs) :
    hs = ("Host", a.host.getD c.domain) ::
        (optionalHeaders a d).filter (fun h => !h.2.isEmpty) ∧
      ∀ h ∈ hs, hasLineBreak h.2 = false := by
  rw [planHeaders] at h
  split at h
  · cases h
  next hbreak =>
  obtain ⟨more, hmore, rfl⟩ := map_eq_ok_iff.1 h
  obtain ⟨hout, hvalues⟩ := planOptional_ok hmore
  exact ⟨by rw [hout], List.forall_mem_cons.2 ⟨Bool.not_eq_true _ ▸ hbreak, hvalues⟩⟩

namespace Request

theorem planWith_ok {lib : Url.Library} {a : HttpArguments} {d : HttpDefaults} {c : Connection}
    {r : Request} (h : planWith lib a d c = .ok r) :
    r.method = a.method.getD "GET" ∧ isToken r.method = true ∧
      planUrlWith lib a c = .ok r.url ∧ planHeaders a d c = .ok r.headers := by
  rw [planWith] at h
  split at h
  · cases h
  next htoken =>
  split at h
  · cases h
  next url hurl =>
  obtain ⟨headers, hheaders, rfl⟩ := map_eq_ok_iff.1 h
  exact ⟨rfl, by simpa using htoken, hurl, hheaders⟩

theorem plan_ok {a : HttpArguments} {d : HttpDefaults} {c : Connection} {r : Request}
    (h : plan a d c = .ok r) : r.method = a.method.getD "GET" ∧ isToken r.method = true ∧
      planUrl a c = .ok r.url ∧ planHeaders a d c = .ok r.headers :=
  planWith_ok h

end Request

/-! ## Parts of a head -/

theorem isVisible_of_isTokenChar {c : Char} (h : isTokenChar c = true) :
    IsVisibleAscii c ∧ c ≠ ':' := by
  have hrange : ∀ {low high : Char}, 0x3a < low.toNat ∨ high.toNat < 0x3a → 0x20 < low.toNat →
      high.toNat ≤ 0x7e → (decide (low ≤ c) && decide (c ≤ high)) = true →
      IsVisibleAscii c ∧ c ≠ ':' := by
    intro low high hcolon hlow hhigh hc
    rw [Bool.and_eq_true, decide_eq_true_eq, decide_eq_true_eq] at hc
    have hge : low.toNat ≤ c.toNat := hc.1
    have hle : c.toNat ≤ high.toNat := hc.2
    refine ⟨⟨by omega, by omega⟩, ?_⟩
    rintro rfl
    have hvalue : ':'.toNat = 0x3a := rfl
    omega
  simp only [isTokenChar, Bool.or_eq_true] at h
  rcases h with ((h | h) | h) | h
  · exact hrange (.inl (by decide)) (by decide) (by decide) h
  · exact hrange (.inl (by decide)) (by decide) (by decide) h
  · exact hrange (.inr (by decide)) (by decide) (by decide) h
  · have hall : ['!', '#', '$', '%', '&', '\'', '*', '+', '-', '.', '^', '_', '\x60', '|', '~'].all
        (fun d => decide (0x20 < d.toNat) && decide (d.toNat ≤ 0x7e) && d != ':') = true := by
      decide
    have hc := List.all_eq_true.1 hall c (List.contains_iff_mem.1 h)
    simpa [IsVisibleAscii] using hc

/-- Whether the parts of a request can be told apart in its head. -/
structure Request.IsReadable (r : Request) : Prop where
  method : isToken r.method = true
  target : ∀ c ∈ r.url.target.toList, IsVisibleAscii c
  names : ∀ h ∈ r.headers, isToken h.1 = true
  values : ∀ h ∈ r.headers, hasLineBreak h.2 = false

/-- The names are fixed, so they hold nothing that was asked for. -/
theorem isToken_of_planHeaders {a : HttpArguments} {d : HttpDefaults} {c : Connection}
    {hs : List (String × String)} (h : planHeaders a d c = .ok hs) :
    ∀ h ∈ hs, isToken h.1 = true := by
  obtain ⟨hlist, -⟩ := planHeaders_ok h
  have hhost : isToken "Host" = true := by decide
  have hoptional : ∀ h ∈ optionalHeaders a d, isToken h.1 = true := by
    simp only [optionalHeaders, List.forall_mem_cons]
    exact ⟨by decide, by decide, by decide, by decide, List.forall_mem_nil _⟩
  rw [hlist]
  exact List.forall_mem_cons.2 ⟨hhost, fun h hh => hoptional h (List.mem_of_mem_filter hh)⟩

/-- Of the library it only matters that nothing but visible ASCII is in the paths and queries that
    it makes. -/
theorem Request.isReadable_of_planWith {lib : Url.Library} {a : HttpArguments} {d : HttpDefaults}
    {c : Connection} {r : Request} (hlib : lib.IsVisible) (h : planWith lib a d c = .ok r) :
    r.IsReadable := by
  obtain ⟨-, htoken, hurl, hheaders⟩ := planWith_ok h
  obtain ⟨v, hparse, hv⟩ := planUrlWith_ok hurl
  obtain ⟨-, hvalues⟩ := planHeaders_ok hheaders
  refine ⟨htoken, ?_, isToken_of_planHeaders hheaders, hvalues⟩
  rw [hv]
  exact hlib hparse _

theorem Request.isReadable_of_plan {a : HttpArguments} {d : HttpDefaults} {c : Connection}
    {r : Request} (h : plan a d c = .ok r) : r.IsReadable :=
  isReadable_of_planWith Url.Library.isVisible_ascii h

/-! ## Reading -/

/-- What is read of a head. -/
structure RequestHead where
  method : String
  target : String
  version : String
  headers : List (String × String)
deriving DecidableEq

namespace RequestHead

def headerOf? (line : List Char) : Option (String × String) :=
  (splitField line).map fun r => (String.ofList r.1, String.ofList r.2)

/-- The parts of a head: three words, headers, and an empty line that nothing follows. -/
def read? (text : String) : Option RequestHead :=
  match splitBreaks text.toList with
  | [] => none
  | start :: lines =>
    match splitChars ' ' start, (lines.takeWhile (!·.isEmpty)).mapM headerOf?,
      lines.dropWhile (!·.isEmpty) with
    | [method, target, version], some headers, [[], []] =>
      some {
        method := String.ofList method, target := String.ofList target,
        version := String.ofList version, headers }
    | _, _, _ => none

/-- The first line of a head. -/
def startLine (r : Request) : List Char :=
  r.method.toList ++ ' ' :: (r.url.target.toList ++ ' ' :: "HTTP/1.1".toList)

/-- The line of a header. -/
def fieldLine (h : String × String) : List Char :=
  h.1.toList ++ ':' :: ' ' :: h.2.toList

/-- A head as characters. -/
theorem toList_head (r : Request) :
    r.head.toList = startLine r ++ '\r' :: '\n' ::
      (r.headers.flatMap (fun h => fieldLine h ++ ['\r', '\n']) ++ ['\r', '\n']) := by
  rw [Request.head, headLine, headLine]
  simp only [String.toList_append, String.toList_join, List.flatMap_map, headLine, fieldLine,
    startLine]
  simp

theorem isVisible_of_isToken {s : String} (h : isToken s = true) :
    ∀ c ∈ s.toList, IsVisibleAscii c ∧ c ≠ ':' := by
  rw [isToken, Bool.and_eq_true] at h
  exact fun c hc => isVisible_of_isTokenChar (List.all_eq_true.1 h.2 c hc)

theorem not_mem_of_hasLineBreak {s : String} (h : hasLineBreak s = false) :
    '\r' ∉ s.toList ∧ '\n' ∉ s.toList := by
  have hno : ∀ c ∈ s.toList, ¬ (c == '\r' || c == '\n') = true := List.any_eq_false.1 h
  exact ⟨fun hmem => hno _ hmem rfl, fun hmem => hno _ hmem rfl⟩

/-- Whether a text can stand between the spaces of a line. -/
structure IsWord (cs : List Char) : Prop where
  space : ' ' ∉ cs
  carriageReturn : '\r' ∉ cs
  feed : '\n' ∉ cs

theorem isWord_of_isVisible {cs : List Char} (h : ∀ c ∈ cs, IsVisibleAscii c) : IsWord cs := by
  have hno : ∀ d : Char, d.toNat ≤ 0x20 → d ∉ cs := fun d hd hmem =>
    absurd (h d hmem).1 (Nat.not_lt.2 hd)
  exact ⟨hno _ (by decide), hno _ (by decide), hno _ (by decide)⟩

theorem isWord_of_isToken {s : String} (h : isToken s = true) : IsWord s.toList :=
  isWord_of_isVisible fun c hc => (isVisible_of_isToken h c hc).1

/-! No part of a head has the character in it that stands behind it. -/

section

variable {r : Request}

theorem startLine_unbroken (hmethod : isToken r.method = true)
    (htarget : IsWord r.url.target.toList) : '\r' ∉ startLine r ∧ '\n' ∉ startLine r := by
  have hword := isWord_of_isToken hmethod
  simp only [startLine, List.mem_append, List.mem_cons, not_or]
  exact ⟨⟨hword.carriageReturn, by decide, htarget.carriageReturn, by decide⟩,
    ⟨hword.feed, by decide, htarget.feed, by decide⟩⟩

theorem splitChars_startLine (hmethod : isToken r.method = true)
    (htarget : IsWord r.url.target.toList) :
    splitChars ' ' (startLine r) = [r.method.toList, r.url.target.toList, "HTTP/1.1".toList] := by
  rw [startLine, splitChars_append (isWord_of_isToken hmethod).space,
    splitChars_append htarget.space, splitChars_of_not_mem (by decide)]

theorem fieldLine_unbroken {h : String × String} (hname : isToken h.1 = true)
    (hvalue : hasLineBreak h.2 = false) : '\r' ∉ fieldLine h ∧ '\n' ∉ fieldLine h := by
  have hword := isWord_of_isToken hname
  have hbreak := not_mem_of_hasLineBreak hvalue
  simp only [fieldLine, List.mem_append, List.mem_cons, not_or]
  exact ⟨⟨hword.carriageReturn, by decide, by decide, hbreak.1⟩,
    ⟨hword.feed, by decide, by decide, hbreak.2⟩⟩

theorem splitField_fieldLine {h : String × String} (hname : isToken h.1 = true) :
    splitField (fieldLine h) = some (h.1.toList, h.2.toList) :=
  splitField_append (fun hcolon => (isVisible_of_isToken hname _ hcolon).2 rfl) _

/-- The induction is on the headers. -/
theorem splitBreaks_fields {hs : List (String × String)} (h : ∀ h ∈ hs, '\r' ∉ fieldLine h) :
    splitBreaks (hs.flatMap (fun h => fieldLine h ++ ['\r', '\n']) ++ ['\r', '\n']) =
      hs.map fieldLine ++ [[], []] := by
  induction hs with
  | nil => rfl
  | cons header hs ih =>
    obtain ⟨hheader, hhs⟩ := List.forall_mem_cons.1 h
    rw [List.flatMap_cons, List.append_assoc, List.append_assoc, List.cons_append,
      List.singleton_append, splitBreaks_append hheader, ih hhs]
    rfl

theorem splitBreaks_head (hstart : '\r' ∉ startLine r)
    (hfields : ∀ h ∈ r.headers, '\r' ∉ fieldLine h) :
    splitBreaks r.head.toList = startLine r :: (r.headers.map fieldLine ++ [[], []]) := by
  rw [toList_head, splitBreaks_append hstart, splitBreaks_fields hfields]

end

theorem mapM_headerOf? {hs : List (String × String)} (h : ∀ h ∈ hs, isToken h.1 = true) :
    (hs.map fieldLine).mapM headerOf? = some hs := by
  induction hs with
  | nil => rfl
  | cons header hs ih =>
    obtain ⟨hheader, hhs⟩ := List.forall_mem_cons.1 h
    have hfirst : headerOf? (fieldLine header) = some header := by
      rw [headerOf?, splitField_fieldLine hheader]
      simp
    rw [List.map_cons, List.mapM_cons, hfirst, ih hhs]
    rfl

/-- A head is read as the request that it was made from. -/
theorem read?_head {r : Request} (h : r.IsReadable) :
    read? r.head = some {
      method := r.method
      target := r.url.target
      version := "HTTP/1.1"
      headers := r.headers } := by
  have htarget := isWord_of_isVisible h.target
  have hlines : ∀ line ∈ r.headers.map fieldLine, (!line.isEmpty) = true := by
    intro line hline
    obtain ⟨header, -, rfl⟩ := List.mem_map.1 hline
    simp [fieldLine]
  rw [read?, splitBreaks_head (startLine_unbroken h.method htarget).1 fun header hheader =>
    (fieldLine_unbroken (h.names header hheader) (h.values header hheader)).1]
  simp only [splitChars_startLine h.method htarget, List.takeWhile_append_of_pos hlines,
    List.dropWhile_append_of_pos hlines, List.takeWhile_cons, List.dropWhile_cons,
    List.isEmpty_nil, Bool.not_true, Bool.false_eq_true, if_false, List.append_nil,
    mapM_headerOf? h.names, String.ofList_toList]

end RequestHead

end NetProbe.Http
