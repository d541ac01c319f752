import NetProbe.Proofs.Url.Authority
import NetProbe.Proofs.Url.Target
set_option autoImplicit false

/-! # Libraries for URLs

Requests leave URLs to a library, and rely on little that it does (`Library.IsFaithful`): paths and
queries are visible ASCII, and a URL that is made from a host shows that host, whatever path is put
in. Which host an authority tells is up to the library too, for names in other scripts have a form
in ASCII that only tables tell. The library for ASCII is faithful (`Library.isFaithful_ascii`), and
so it is if it learns such a name (`ForeignName.isFaithful_library`). -/

namespace NetProbe.Url

/-- What requests rely on. Only a scheme of web pages says that what follows is a host. -/
structure Library.IsFaithful (lib : Library) (hostOf : String → Option Host) : Prop where
  visible : lib.IsVisible
  host : ∀ {name text : String} {u : Url} {h : Host}, (Scheme.ofText? name).isSome →
    lib.parse (name ++ "://" ++ Http.authorityOf text ++ "/") = .ok u → hostOf text = some h →
    hostOf u.authority = some h
  withPath : ∀ (u : Url) (path : String), (lib.withPath u path).authority = u.authority

/-! ## Hosts in ASCII -/

theorem Scheme.eq_of_ofText? {name : String} (h : (ofText? name).isSome) :
    name = "http" ∨ name = "https" := by
  rw [ofText?] at h
  split at h
  · next hname => exact .inl hname
  split at h
  · next hname => exact .inr hname
  · cases h

theorem read_append {name : String} {scheme : Scheme} (h : Scheme.ofText? name = some scheme)
    (authority : String) :
    read (name ++ "://" ++ authority ++ "/") = parse scheme ("//" ++ authority ++ "/") := by
  have hname : ∀ c ∈ name.toList, (c != ':') = true := by
    rcases Scheme.eq_of_ofText? (Option.isSome_of_eq_some h) with rfl | rfl <;> simp
  have htext : (name ++ "://" ++ authority ++ "/").toList =
      name.toList ++ ':' :: ("//" ++ authority ++ "/").toList := by
    simp [String.toList_append]
  rw [read, htext]
  simp only [List.takeWhile_append_of_pos hname, List.dropWhile_append_of_pos hname,
    List.takeWhile_cons, List.dropWhile_cons, bne_self_eq_false, Bool.false_eq_true, if_false,
    List.append_nil, List.drop_succ_cons, List.drop_zero, String.ofList_toList, h]

theorem Library.parse_ascii (text : String) : ascii.parse text = read text := rfl

theorem Library.isFaithful_ascii : Library.ascii.IsFaithful Host.ofAuthority? where
  visible := isVisible_ascii
  host := by
    intro name text u h hscheme hparse hnamed
    obtain ⟨scheme, hscheme⟩ := Option.isSome_iff_exists.1 hscheme
    rw [parse_ascii, read_append hscheme] at hparse
    exact ofAuthority?_of_parse hparse hnamed
  withPath := fun _ _ => rfl

theorem Library.parse_named {name text : String} {scheme : Scheme} {h : Host}
    (hscheme : Scheme.ofText? name = some scheme) (hnamed : Host.named? text = some h) :
    ascii.parse (name ++ "://" ++ Http.authorityOf text ++ "/") = .ok { scheme, host := h } := by
  rw [parse_ascii, read_append hscheme]
  exact parse_authorityOf scheme hnamed

/-! ## A name in another script -/

/-- A name in another script and its form in ASCII. -/
structure ForeignName where
  text : String
  ascii : String
  authorityOf_text : Http.authorityOf text = text
  authorityOf_ascii : Http.authorityOf ascii = ascii
  /-- Without tables nobody knows the name. -/
  foreign : Host.ofAuthority? text = none

namespace ForeignName

variable (n : ForeignName)

/-- The form in ASCII of a text that may be the name. -/
def toAscii (text : String) : String :=
  if text = n.text then n.ascii else text

def hostOf (text : String) : Option Host := Host.ofAuthority? (n.toAscii text)

/-- The text of a URL with the name in ASCII. -/
def convert (text : String) : String :=
  match ["http", "https"].find? fun scheme => text = scheme ++ "://" ++ n.text ++ "/" with
  | some scheme => scheme ++ "://" ++ n.ascii ++ "/"
  | none => text

/-- The library for ASCII with one name more. -/
def library : Library where
  parse text := Library.ascii.parse (n.convert text)
  withPath := Library.ascii.withPath

variable {n}

theorem convert_append {name text : String} {h : Host} (hname : name = "http" ∨ name = "https")
    (hnamed : n.hostOf text = some h) :
    n.convert (name ++ "://" ++ Http.authorityOf text ++ "/") =
      name ++ "://" ++ Http.authorityOf (n.toAscii text) ++ "/" := by
  have hhttp (x : String) : name ++ "://" ++ x ++ "/" = "http" ++ "://" ++ n.text ++ "/" ↔
      name = "http" ∧ x = n.text := by
    rcases hname with rfl | rfl <;> simp [← String.toList_inj, String.toList_append]
  have hhttps (x : String) : name ++ "://" ++ x ++ "/" = "https" ++ "://" ++ n.text ++ "/" ↔
      name = "https" ∧ x = n.text := by
    rcases hname with rfl | rfl <;> simp [← String.toList_inj, String.toList_append]
  rw [hostOf, toAscii] at hnamed
  rw [toAscii, convert]
  simp only [List.find?_cons, hhttp, hhttps]
  by_cases htext : text = n.text
  · subst htext
    rw [if_pos rfl, n.authorityOf_text, n.authorityOf_ascii]
    rcases hname with rfl | rfl <;> simp
  · rw [if_neg htext] at hnamed ⊢
    have hne : Http.authorityOf text ≠ n.text := by
      intro heq
      have hnone := Host.ofAuthority?_authorityOf hnamed
      rw [heq, n.foreign] at hnone
      cases hnone
    simp [hne]

theorem parse_library (text : String) :
    n.library.parse text = Library.ascii.parse (n.convert text) := rfl

theorem withPath_library (u : Url) (path : String) :
    n.library.withPath u path = Library.ascii.withPath u path := rfl

theorem isFaithful_library : n.library.IsFaithful n.hostOf where
  visible := by
    intro text u hparse path
    rw [parse_library] at hparse
    rw [withPath_library]
    exact Library.isVisible_ascii hparse path
  host := by
    intro name text u h hscheme hparse hnamed
    rw [parse_library, convert_append (Scheme.eq_of_ofText? hscheme) hnamed] at hparse
    have hshown := Library.isFaithful_ascii.host hscheme hparse hnamed
    -- The URL shows the name in ASCII, so there is nothing to convert.
    rw [hostOf, toAscii, if_neg]
    · exact hshown
    · intro hforeign
      rw [hforeign, n.foreign] at hshown
      cases hshown
  withPath := fun _ _ => rfl

theorem parse_text {name : String} {scheme : Scheme} {h : Host}
    (hscheme : Scheme.ofText? name = some scheme) (hnamed : Host.named? n.ascii = some h) :
    n.library.parse (name ++ "://" ++ Http.authorityOf n.text ++ "/")
      = .ok { scheme, host := h } := by
  have hname := Scheme.eq_of_ofText? (Option.isSome_of_eq_some hscheme)
  have hhost : n.hostOf n.text = some h := by
    rw [hostOf, toAscii, if_pos rfl, Host.ofAuthority?, hnamed]
  rw [parse_library, convert_append hname hhost, toAscii, if_pos rfl]
  exact Library.parse_named hscheme hnamed

/-- A shop for books. -/
def books : ForeignName where
  text := "bücher.example"
  ascii := "xn--bcher-kva.example"
  authorityOf_text := by decide
  authorityOf_ascii := by decide
  foreign := by decide

end ForeignName

end NetProbe.Url
