import NetProbe.Measurement.Transaction
import NetProbe.Proofs.Http.RequestHead
import NetProbe.Proofs.Url.Library
set_option autoImplicit false

/-! # One request, sent in two ways

A planned request goes out as a head or as fields, and in both ways it has the same method, the same
path and query, and the same headers behind the one for the host, which are also those that are
recorded. The host is told by a header of the head and by the authority of the fields. The header
shows the host that was asked for and the authority that of the URL, so they agree if and only if
these do (`Request.sent_alike`). All this is so with every library for URLs that can be relied
on. -/

namespace NetProbe.Http

open HttpTransaction (observations)

theorem Request.fields_ok {r : Request} {f : Fields} (h : r.fields = .ok f) :
    f = {
      method := r.method, scheme := r.url.scheme.text,
      authority := r.url.authority, path := r.url.target,
      headers := (r.headers.filter fun h => !Text.sameIgnoringCase h.1 "host").map fun h =>
        (Text.toLowerAscii h.1, h.2) } := by
  rw [Request.fields] at h
  split at h
  · cases h
  split at h
  · cases h
  split at h
  · cases h
  exact (Except.ok.inj h).symm

/-- Whether a head and fields are the same request up to the host, which the first header of the
    head is about. Names of headers are in lower case in fields. -/
structure SameButHost (q : RequestHead) (f : Fields) : Prop where
  method : f.method = q.method
  target : f.path = q.target
  headers : ∃ host rest, q.headers = ("Host", host) :: rest ∧
    f.headers = rest.map fun h => (Text.toLowerAscii h.1, h.2)

/-- Whether the header of a head and the authority of fields name the same host. -/
def SameHost (hostOf : String → Option Url.Host) (q : RequestHead) (f : Fields) : Prop :=
  ∃ text host, header? q.headers "host" = some text ∧ hostOf text = some host ∧
    hostOf f.authority = some host

variable {lib : Url.Library} {hostOf : String → Option Url.Host} {a : HttpArguments}
  {d : HttpDefaults} {c : Connection} {r : Request} {f : Fields}

/-- The URL of a request shows the host of the text that it is made from. -/
theorem hostOf_of_planUrlWith (hlib : lib.IsFaithful hostOf) {u : Url}
    (h : planUrlWith lib a c = .ok u) {host : Url.Host}
    (hscheme : (Url.Scheme.ofText? (a.urlScheme.getD c.scheme)).isSome)
    (hnamed : hostOf (a.urlHost.getD c.domain) = some host) :
    hostOf u.authority = some host := by
  obtain ⟨v, hparse, rfl⟩ := planUrlWith_ok h
  rw [hlib.withPath]
  exact hlib.host hscheme hparse hnamed

theorem planHeaders_filter {hs : List (String × String)} (h : planHeaders a d c = .ok hs) :
    ∃ rest, hs = ("Host", a.host.getD c.domain) :: rest ∧
      hs.filter (fun h => !Text.sameIgnoringCase h.1 "host") = rest := by
  obtain ⟨hlist, -⟩ := planHeaders_ok h
  refine ⟨_, hlist, ?_⟩
  have hother : ∀ h ∈ optionalHeaders a d, (!Text.sameIgnoringCase h.1 "host") = true := by
    simp only [optionalHeaders, List.forall_mem_cons]
    exact ⟨by decide, by decide, by decide, by decide, List.forall_mem_nil _⟩
  have hhost : (!Text.sameIgnoringCase "Host" "host") = false := by decide
  rw [hlist, List.filter_cons, hhost]
  exact List.filter_eq_self.2 fun h hh => hother h (List.mem_of_mem_filter hh)

/-- The header for the host shows what was asked for. -/
theorem header?_of_planHeaders {hs : List (String × String)} (h : planHeaders a d c = .ok hs) :
    header? hs "host" = some (a.host.getD c.domain) := by
  have hhost : Text.sameIgnoringCase "Host" "host" = true := by decide
  obtain ⟨rest, rfl, -⟩ := planHeaders_filter h
  rw [header?, List.find?_cons, hhost]
  rfl

/-- If the authority names a host, the header decides. -/
theorem sameHost_iff {q : RequestHead} {text : String} {host : Url.Host}
    (hheader : header? q.headers "host" = some text) (hauthority : hostOf f.authority = some host) :
    SameHost hostOf q f ↔ hostOf text = some host := by
  constructor
  · rintro ⟨text', host', htext, hhost, hsame⟩
    obtain rfl := Option.some.inj (hheader.symm.trans htext)
    rw [hhost, ← hsame]
    exact hauthority
  · intro hhost
    exact ⟨text, host, hheader, hhost, hauthority⟩

/-- A request is the same in both ways in which it is sent, and in its record, up to the host,
    whatever library makes its URL. If the authority of the fields names a host, the header of the
    head names it too if and only if the text for the header does. So it is if the URL is one of web
    pages that is made from a text that names a host. -/
theorem Request.sent_alike (hlib : lib.IsFaithful hostOf)
    (hplan : Request.planWith lib a d c = .ok r) (hfields : r.fields = .ok f) :
    ∃ q, RequestHead.read? r.head = some q ∧ SameButHost q f ∧
      (∀ host, hostOf f.authority = some host →
        (SameHost hostOf q f ↔ hostOf (a.host.getD c.domain) = some host)) ∧
      ((Url.Scheme.ofText? (a.urlScheme.getD c.scheme)).isSome →
        ∀ host, hostOf (a.urlHost.getD c.domain) = some host →
          (SameHost hostOf q f ↔ hostOf (a.host.getD c.domain) = some host)) ∧
      ∀ result, ∀ record ∈ (observations c r result).requests,
        record.request.headers = q.headers ∧ record.request.method = q.method := by
  obtain ⟨-, -, hurl, hheaders⟩ := Request.planWith_ok hplan
  obtain ⟨rest, hlist, hfilter⟩ := planHeaders_filter hheaders
  have hheader := header?_of_planHeaders hheaders
  obtain rfl := Request.fields_ok hfields
  refine ⟨_, RequestHead.read?_head (Request.isReadable_of_planWith hlib.visible hplan),
    ⟨rfl, rfl, _, rest, hlist, ?_⟩, ?_, ?_, ?_⟩
  · rw [hfilter]
  · exact fun host hauthority => sameHost_iff hheader hauthority
  · exact fun hscheme host hnamed =>
      sameHost_iff hheader (hostOf_of_planUrlWith hlib hurl hscheme hnamed)
  · rintro result record hrecord
    obtain rfl := List.mem_singleton.1 hrecord
    exact ⟨rfl, rfl⟩

/-- A text that is read as a URL makes the URL of a request. -/
theorem planWith_of_parse {u : Url} {hs : List (String × String)}
    (hmethod : isToken (a.method.getD "GET") = true) (hparse : lib.parse (urlText a c) = .ok u)
    (hheaders : planHeaders a d c = .ok hs) :
    Request.planWith lib a d c = .ok {
      method := a.method.getD "GET"
      url := lib.withPath u (a.urlPath.getD "/")
      headers := hs } := by
  rw [Request.planWith, planUrlWith]
  simp only [hmethod, hparse, hheaders, Bool.not_true, Bool.false_eq_true, if_false]
  rfl

/-- A text that names a host makes the URL of a request. -/
theorem plan_of_named {scheme : Url.Scheme} {host : Url.Host} {hs : List (String × String)}
    (hmethod : isToken (a.method.getD "GET") = true)
    (hscheme : Url.Scheme.ofText? (a.urlScheme.getD c.scheme) = some scheme)
    (hnamed : Url.Host.named? (a.urlHost.getD c.domain) = some host)
    (hheaders : planHeaders a d c = .ok hs) :
    Request.plan a d c = .ok {
      method := a.method.getD "GET"
      url := Url.withPath { scheme, host } (a.urlPath.getD "/")
      headers := hs } :=
  planWith_of_parse hmethod (Url.Library.parse_named hscheme hnamed) hheaders

/-- A request for the first page of a host in a secure connection. -/
def firstPage (name host : String) : Request where
  method := "GET"
  url := Url.withPath { scheme := .https, host := .name name } "/"
  headers := [("Host", host), ("User-Agent", "probe")]

/-- A connection to a server of this domain. -/
def connectionTo (domain : String) : Connection where
  transport := .quic
  address := ⟨.v4 ⟨0x7f000001⟩, 443, 0⟩
  domain := domain
  protocol := "h3"
  trace := 1
  slot := 0

/-- A name that no table is needed for, and one that the URL shows in another form. -/
theorem Request.sent_alike_domain :
    let d : HttpDefaults := { userAgent := "probe", accept := "", acceptLanguage := "" }
    let c := connectionTo "www.example.com"
    (let r := firstPage "www.example.com" "www.example.com"
    let f : Fields := ⟨"GET", "https", "www.example.com", "/", [("user-agent", "probe")]⟩
    Request.plan {} d c = .ok r ∧ r.fields = .ok f ∧
      ∃ q, RequestHead.read? r.head = some q ∧ SameButHost q f ∧
        SameHost Url.Host.ofAuthority? q f) ∧
    let a : HttpArguments := {
      urlHost := some "bücher.example", host := some "xn--Bcher-kva.example" }
    let r := firstPage "xn--bcher-kva.example" "xn--Bcher-kva.example"
    let f : Fields := ⟨"GET", "https", "xn--bcher-kva.example", "/", [("user-agent", "probe")]⟩
    Request.planWith Url.ForeignName.books.library a d c = .ok r ∧ r.fields = .ok f ∧
      ∃ q, RequestHead.read? r.head = some q ∧ SameButHost q f ∧
        SameHost Url.ForeignName.books.hostOf q f := by
  intro d c
  constructor
  · intro r f
    have hnamed : Url.Host.ofAuthority? "www.example.com" = some (.name "www.example.com") := by
      decide
    have hplan : Request.plan {} d c = .ok r :=
      @plan_of_named {} d c .https (.name "www.example.com") _ (by decide) (by decide) (by decide)
        (by decide)
    have hfields : r.fields = .ok f := by decide
    obtain ⟨q, hread, hsame, -, hhost, -⟩ :=
      Request.sent_alike Url.Library.isFaithful_ascii hplan hfields
    exact ⟨hplan, hfields, q, hread, hsame, (hhost (by decide) _ hnamed).2 hnamed⟩
  · intro a r f
    have hurl : Url.ForeignName.books.hostOf "bücher.example" =
        some (.name "xn--bcher-kva.example") := by decide
    have hheader : Url.ForeignName.books.hostOf "xn--Bcher-kva.example" =
        some (.name "xn--bcher-kva.example") := by decide
    have hparse : Url.ForeignName.books.library.parse (urlText a c) =
        .ok { scheme := .https, host := .name "xn--bcher-kva.example" } :=
      Url.ForeignName.parse_text (by decide) (by decide)
    have hplan : Request.planWith Url.ForeignName.books.library a d c = .ok r :=
      planWith_of_parse (by decide) hparse (by decide)
    have hfields : r.fields = .ok f := by decide
    obtain ⟨q, hread, hsame, -, hhost, -⟩ :=
      Request.sent_alike Url.ForeignName.isFaithful_library hplan hfields
    exact ⟨hplan, hfields, q, hread, hsame, (hhost (by decide) _ hurl).2 hheader⟩

/-- A host that is asked for with an option is shown in the header, which fields lack, and not in
    the authority. -/
theorem Request.not_sameHost_option :
    let a : HttpArguments := { host := some "cdn.example.org" }
    let d : HttpDefaults := { userAgent := "probe", accept := "", acceptLanguage := "" }
    let c := connectionTo "www.example.com"
    let r := firstPage "www.example.com" "cdn.example.org"
    let f : Fields := ⟨"GET", "https", "www.example.com", "/", [("user-agent", "probe")]⟩
    Request.plan a d c = .ok r ∧ r.fields = .ok f ∧
      ∃ q, RequestHead.read? r.head = some q ∧ ¬ SameHost Url.Host.ofAuthority? q f := by
  intro a d c r f
  have hplan : Request.plan a d c = .ok r :=
    @plan_of_named a d c .https (.name "www.example.com") _ (by decide) (by decide) (by decide)
      (by decide)
  have hfields : r.fields = .ok f := by decide
  refine ⟨hplan, hfields, _, RequestHead.read?_head (Request.isReadable_of_plan hplan), ?_⟩
  rintro ⟨text, host, htext, hheader, hauthority⟩
  obtain rfl : "cdn.example.org" = text := Option.some.inj htext
  have hcdn : Url.Host.ofAuthority? "cdn.example.org" = some (.name "cdn.example.org") := by decide
  have hwww : Url.Host.ofAuthority? "www.example.com" = some (.name "www.example.com") := by decide
  have hsame := (hcdn.symm.trans hheader).trans (hauthority.symm.trans hwww)
  exact absurd hsame (by decide)

end NetProbe.Http
