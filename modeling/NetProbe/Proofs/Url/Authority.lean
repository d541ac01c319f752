import NetProbe.Http.Request
import NetProbe.Proofs.Results
import NetProbe.Proofs.Url.HostName
set_option autoImplicit false

/-! # Authorities

An authority without a user is a host, perhaps with a port (`Host.ofAuthority?`). A URL that is made
from one has that host, and shows it by an authority that tells the same host
(`ofAuthority?_of_parse`). -/

namespace NetProbe.Url

open AddressText

/-- The host of an authority without a user: what stands before a port, if there is one. -/
def Host.ofAuthority? (text : String) : Option Host :=
  match Host.named? text with
  | some h => some h
  | none =>
    let (host, port) := splitHost false text.toList
    if port.head? = some ':' ∧ port.tail.all Char.isDigit = true then
      Host.named? (String.ofList host)
    else none

/-! ## Hosts and ports -/

/-- Characters of a text that can only be read as the host of a URL. -/
def IsPlain (c : Char) : Prop :=
  isBreak c = false ∧ isAuthorityEnd c = false ∧ c ≠ '@'

theorem isPlain_of_isForbidden {c : Char} (hc : Host.isForbidden c = false) : IsPlain c := by
  have hne : ∀ {d : Char}, Host.isForbidden d = true → c ≠ d := ne_of_isForbidden hc
  refine ⟨?_, ?_, hne (by decide)⟩
  · simp [isBreak, @hne '\n' (by decide), @hne '\r' (by decide), @hne '\t' (by decide)]
  · simp [isAuthorityEnd, isSlash, @hne '/' (by decide), @hne '\\' (by decide),
      @hne '?' (by decide), @hne '#' (by decide)]

theorem isPlain_of_isAddressChar {c : Char} (hc : IsAddressChar c) : IsPlain c := by
  by_cases hcolon : c = ':'
  · subst hcolon
    exact ⟨by decide, by decide, by decide⟩
  · exact isPlain_of_isForbidden (isForbidden_of_isAddressChar hc hcolon)

theorem splitHost_of_not_mem {cs : List Char} (hcolon : ':' ∉ cs) {rest : List Char}
    (hrest : rest = [] ∨ rest.head? = some ':') (hopen : '[' ∉ cs) :
    splitHost false (cs ++ rest) = (cs, rest) := by
  induction cs with
  | nil =>
    cases rest with
    | nil => rfl
    | cons c rest =>
      obtain rfl : c = ':' := Option.some.inj (hrest.resolve_left (List.cons_ne_nil c rest))
      rfl
  | cons c cs ih =>
    obtain ⟨hc, hcs⟩ := not_or.1 (mt List.mem_cons.2 hcolon)
    obtain ⟨hd, hds⟩ := not_or.1 (mt List.mem_cons.2 hopen)
    have hno : (c == ':' && !false) = false := by simp [Ne.symm hc]
    have hout : (c == '[' || (false && c != ']')) = false := by simp [Ne.symm hd]
    rw [List.cons_append, splitHost, hno, hout, ih hcs hds]
    rfl

theorem splitHost_bracketed {cs : List Char} (hclose : ']' ∉ cs) {rest : List Char}
    (hrest : rest = [] ∨ rest.head? = some ':') :
    splitHost true (cs ++ ']' :: rest) = (cs ++ [']'], rest) := by
  induction cs with
  | nil =>
    have hend : splitHost false ([] ++ rest) = ([], rest) :=
      @splitHost_of_not_mem [] List.not_mem_nil _ hrest List.not_mem_nil
    rw [List.nil_append] at hend
    rw [List.nil_append, splitHost]
    simp [hend]
  | cons c cs ih =>
    obtain ⟨hc, hcs⟩ := not_or.1 (mt List.mem_cons.2 hclose)
    have hstay : (c == '[' || (true && c != ']')) = true := by
      simp [Ne.symm hc]
    rw [List.cons_append, splitHost, hstay, ih hcs]
    simp

/-- What stands before a port has brackets or no colon. -/
theorem splitHost_spec (inBrackets : Bool) (cs : List Char) :
    cs = (splitHost inBrackets cs).1 ++ (splitHost inBrackets cs).2 ∧
      (inBrackets = false → '[' ∉ (splitHost inBrackets cs).1 →
        ':' ∉ (splitHost inBrackets cs).1) := by
  induction cs generalizing inBrackets with
  | nil => exact ⟨rfl, fun _ _ => List.not_mem_nil⟩
  | cons c cs ih =>
    rw [splitHost]
    split
    · exact ⟨rfl, fun _ _ => List.not_mem_nil⟩
    next hcolon =>
    obtain ⟨happend, hnone⟩ := ih (c == '[' || (inBrackets && c != ']'))
    refine ⟨congrArg (c :: ·) happend, ?_⟩
    rintro rfl hopen
    obtain ⟨hc, hcs⟩ := not_or.1 (mt List.mem_cons.2 hopen)
    have hout : (c == '[' || (false && c != ']')) = false := by simp [Ne.symm hc]
    have hne : ':' ≠ c := by
      rintro rfl
      exact hcolon rfl
    exact List.not_mem_cons_of_ne_of_not_mem hne (hnone hout hcs)

/-- Whether characters stand for a host where a URL has it, whatever port follows. -/
structure IsHostText (cs : List Char) (h : Host) : Prop where
  nonempty : cs ≠ []
  plain : ∀ c ∈ cs, IsPlain c
  colon : cs.head? = some '[' ∨ ':' ∉ cs
  split : ∀ rest : List Char, rest = [] ∨ rest.head? = some ':' →
    splitHost false (cs ++ rest) = (cs, rest)
  parse : Host.parse cs = .ok h

theorem not_isAddressChar_bracket : ¬ IsAddressChar '[' ∧ ¬ IsAddressChar ']' := by
  unfold IsAddressChar
  decide

theorem isHostText_brackets {cs : List Char} {a : Ipv6} (h : readIpv6 cs = some (a, [])) :
    IsHostText ('[' :: (cs ++ [']'])) (.ipv6 a) := by
  obtain ⟨front, hfront, hchars⟩ := takes_of_readIpv6 h
  rw [List.append_nil] at hfront
  subst hfront
  have hclose : ']' ∉ cs := fun hmem => not_isAddressChar_bracket.2 (hchars _ hmem)
  refine ⟨List.cons_ne_nil _ _, ?_, .inl rfl, ?_, Host.parse_bracketed h⟩
  · simp only [List.forall_mem_cons, List.forall_mem_append]
    exact ⟨⟨by decide, by decide, by decide⟩, fun c hc => isPlain_of_isAddressChar (hchars c hc),
      ⟨by decide, by decide, by decide⟩, nofun⟩
  · intro rest hrest
    have hopen : ('[' == ':' && !false) = false := rfl
    rw [List.cons_append, List.append_assoc, List.singleton_append, splitHost, hopen]
    simp [splitHost_bracketed hclose hrest]

theorem isHostText_allowed {cs : List Char} {h : Host} (hne : cs ≠ [])
    (hall : ∀ c ∈ cs, Host.isForbidden c = false) (hparse : Host.parse cs = .ok h) :
    IsHostText cs h where
  nonempty := hne
  plain := fun c hc => isPlain_of_isForbidden (hall c hc)
  colon := .inr fun hmem => absurd (hall _ hmem) (by decide)
  split := fun _ hrest => splitHost_of_not_mem (fun hmem => absurd (hall _ hmem) (by decide)) hrest
    fun hmem => absurd (hall _ hmem) (by decide)
  parse := hparse

/-- A text that names a host stands for it, unless it is an address without the brackets. -/
theorem isHostText_of_named {text : String} {h : Host} (hnamed : Host.named? text = some h) :
    IsHostText text.toList h ∨ ∃ a, readIpv6 text.toList = some (a, []) ∧ h = .ipv6 a := by
  rcases Host.named?_cases hnamed with
    ⟨cs, a, hcs, hread, rfl⟩ | hsix | ⟨a, hdotted, rfl⟩ | ⟨hname, rfl⟩
  · exact .inl (hcs ▸ isHostText_brackets hread)
  · exact .inr hsix
  · exact .inl (isHostText_allowed (List.ne_nil_of_mem hdotted.dot) (allowed_of_dotted hdotted)
      (Host.parse_dotted hdotted))
  · refine .inl (isHostText_allowed hname.nonempty hname.allowed ?_)
    rw [Host.parse_allowed hname.nonempty hname.allowed, hname.notNumber]
    rfl

theorem isHostText_text {text : String} {h : Host} (hnamed : Host.named? text = some h) :
    IsHostText h.text.toList h := by
  rcases isHostText_of_named (Host.named?_text hnamed) with htext | ⟨a, -, rfl⟩
  · exact htext
  · have htext : (Host.ipv6 a).text.toList = '[' :: (a.groupsText.toList ++ [']']) := by
      simp [Host.text, String.toList_append]
    rw [htext]
    exact isHostText_brackets (readIpv6_groupsText a)

/-! ## Reading -/

/-- A URL that is made from a host, perhaps with a port, and nothing else. -/
theorem parse_hostText (scheme : Scheme) {cs port : List Char} {h : Host} (hcs : IsHostText cs h)
    (hport : port = [] ∨ port.head? = some ':') (hplain : ∀ c ∈ port, IsPlain c)
    {authority : String} (hauthority : authority.toList = cs ++ port) :
    parse scheme ("//" ++ authority ++ "/") =
      (portOf scheme port).map fun p => { scheme, host := h, port := p } := by
  have hall : ∀ c ∈ cs ++ port, IsPlain c := List.forall_mem_append.2 ⟨hcs.plain, hplain⟩
  have hfilter : (cs ++ port).filter (fun c => !isBreak c) = cs ++ port :=
    List.filter_eq_self.2 fun c hc => by rw [(hall c hc).1]; rfl
  have hend : ∀ c ∈ cs ++ port, (!isAuthorityEnd c) = true := fun c hc => by
    rw [(hall c hc).2.1]; rfl
  have hat : '@' ∉ cs ++ port := fun hmem => (hall '@' hmem).2.2 rfl
  -- The host does not start with a slash, so only the two before it are taken away.
  have hslash : (cs ++ port ++ ['/']).dropWhile isSlash = cs ++ port ++ ['/'] := by
    obtain ⟨c, t, ht⟩ := List.exists_cons_of_ne_nil hcs.nonempty
    have hc := (hcs.plain c (ht ▸ List.mem_cons_self)).2.1
    rw [isAuthorityEnd, Bool.or_assoc, Bool.or_eq_false_iff] at hc
    rw [ht, List.cons_append, List.cons_append, List.dropWhile_cons, hc.1]
    rfl
  have htext : ("//" ++ authority ++ "/").toList = '/' :: '/' :: (cs ++ port ++ ['/']) := by
    simp [String.toList_append, hauthority]
  have hstart : (("//" ++ authority ++ "/").toList.filter fun c => !isBreak c).dropWhile isSlash =
      cs ++ port ++ ['/'] := by
    have hkept : ('/' :: '/' :: (cs ++ port ++ ['/'])).filter (fun c => !isBreak c) =
        '/' :: '/' :: (cs ++ port ++ ['/']) := by
      rw [List.filter_cons_of_pos (by decide), List.filter_cons_of_pos (by decide),
        List.filter_append, hfilter]
      rfl
    rw [htext, hkept]
    exact hslash
  have htake : (cs ++ port ++ ['/']).takeWhile (fun c => !isAuthorityEnd c) = cs ++ port := by
    rw [List.takeWhile_append_of_pos hend]
    exact List.append_nil _
  have hdrop : (cs ++ port ++ ['/']).dropWhile (fun c => !isAuthorityEnd c) = ['/'] := by
    rw [List.dropWhile_append_of_pos hend]
    rfl
  have huser : splitUser (cs ++ port) = (none, cs ++ port) := by
    rw [splitUser, List.contains_eq_mem, decide_eq_false hat]
    rfl
  rw [parse]
  simp only [hstart, htake, hdrop, huser, hcs.split port hport, hcs.parse, List.isEmpty_iff,
    hcs.nonempty, if_false]
  cases portOf scheme port <;> rfl

/-! ## Authorities -/

/-- Nothing, or a port behind its colon. -/
def IsPort (cs : List Char) : Prop :=
  cs = [] ∨ ∃ ds, cs = ':' :: ds ∧ ∀ c ∈ ds, c.isDigit = true

theorem IsPort.head? {cs : List Char} (h : IsPort cs) : cs = [] ∨ cs.head? = some ':' := by
  rcases h with rfl | ⟨ds, rfl, -⟩
  · exact .inl rfl
  · exact .inr rfl

theorem isPlain_of_isDigit {c : Char} (h : c.isDigit = true) : IsPlain c := by
  rw [Char.isDigit, Bool.and_eq_true, decide_eq_true_eq, decide_eq_true_eq] at h
  exact isPlain_of_isAddressChar (.inr (.inr (.inl h)))

theorem IsPort.plain {cs : List Char} (h : IsPort cs) : ∀ c ∈ cs, IsPlain c := by
  rcases h with rfl | ⟨ds, rfl, hds⟩
  · exact nofun
  · exact List.forall_mem_cons.2
      ⟨⟨by decide, by decide, by decide⟩, fun c hc => isPlain_of_isDigit (hds c hc)⟩

theorem isPort_portText (u : Url) : IsPort u.portText.toList := by
  unfold portText
  split
  · exact .inl rfl
  · next p _ =>
    refine .inr ⟨Nat.toDigits 10 p.toNat, ?_, ?_⟩
    · rw [String.toList_append, Nat.toString_eq_repr, Nat.toList_repr]
      rfl
    · exact fun c hc => Nat.isDigit_of_mem_toDigits (by decide) (by decide) hc

namespace Host

theorem named?_ipv6 {text : String} {a : Ipv6} (h : readIpv6 text.toList = some (a, [])) :
    named? text = some (.ipv6 a) := by
  have hopen : text.toList.head? ≠ some '[' := by
    intro hhead
    obtain ⟨cs, hcs⟩ := List.head?_eq_some_iff.1 hhead
    have hnone : readIpv6 ('[' :: cs) = none := rfl
    rw [hcs, hnone] at h
    cases h
  have hcolon : ':' ∈ text.toList := by
    have hcount := two_le_count_of_readIpv6 h
    exact List.count_pos_iff.1 (Nat.lt_of_lt_of_le (by decide) hcount)
  rw [named?]
  simp only [if_neg hopen, if_pos hcolon, h]
  rfl

/-- With a port behind it, a host is not a host on its own. -/
theorem named?_port {cs ds : List Char} {h : Host} (hcs : IsHostText cs h)
    (hds : ∀ c ∈ ds, c.isDigit = true) : named? (String.ofList (cs ++ ':' :: ds)) = none := by
  have hlast : (cs ++ ':' :: ds).getLast? ≠ some ']' := by
    intro hlast
    rw [List.getLast?_append_of_ne_nil _ (List.cons_ne_nil ':' ds)] at hlast
    rcases List.mem_cons.1 (List.mem_of_getLast? hlast) with hcolon | hdigit
    · exact absurd hcolon (by decide)
    · exact absurd (hds _ hdigit) (by decide)
  have hmem : ':' ∈ cs ++ ':' :: ds := by simp
  rw [named?]
  simp only [String.toList_ofList, if_neg hlast, if_pos hmem]
  rcases hcs.colon with hopen | hcolon
  · have hhead : (cs ++ ':' :: ds).head? = some '[' := by
      rw [List.head?_append, hopen]
      rfl
    rw [if_pos hhead]
  · have hdigits : ':' ∉ ds := fun hmem => absurd (hds _ hmem) (by decide)
    have hnone : readIpv6 (cs ++ ':' :: ds) = none := by
      cases hread : readIpv6 (cs ++ ':' :: ds) with
      | none => rfl
      | some r =>
        have hcount := two_le_count_of_readIpv6 hread
        rw [List.count_append, List.count_cons_self, List.count_eq_zero.2 hcolon,
          List.count_eq_zero.2 hdigits] at hcount
        exact absurd hcount (by decide)
    rw [hnone]
    exact ite_self _

theorem ofAuthority?_append {cs port : List Char} {h : Host} (hcs : IsHostText cs h)
    (hnamed : named? (String.ofList cs) = some h) (hport : IsPort port) :
    ofAuthority? (String.ofList (cs ++ port)) = some h := by
  rcases hport with rfl | ⟨ds, rfl, hds⟩
  · rw [List.append_nil, ofAuthority?, hnamed]
  · have hall : (':' :: ds).tail.all Char.isDigit = true := List.all_eq_true.2 hds
    rw [ofAuthority?, named?_port hcs hds]
    simp only [String.toList_ofList, hcs.split (':' :: ds) (.inr rfl)]
    rw [if_pos ⟨rfl, hall⟩, hnamed]

end Host

theorem authorityOf_of_readIpv6 {text : String} {a : Ipv6}
    (h : readIpv6 text.toList = some (a, [])) :
    Http.authorityOf text = "[" ++ a.text ++ "]" := by
  rw [Http.authorityOf, Ip.parse?, readIpv4_of_readIpv6 h, h]
  rfl

theorem authorityOf_self {text : String} (h : ∀ a, readIpv6 text.toList ≠ some (a, [])) :
    Http.authorityOf text = text := by
  have hsix : whole (readIpv6 text.toList) = none := by
    cases hwhole : whole (readIpv6 text.toList) with
    | none => rfl
    | some a => exact absurd (whole_eq_some_iff.1 hwhole) (h a)
  rw [Http.authorityOf, Ip.parse?, hsix]
  cases readIpv4 text.toList with
  | none => rfl
  | some r =>
    dsimp only
    cases whole (some r) <;> rfl

/-- What names a host stands for it in a URL. -/
theorem isHostText_authorityOf {text : String} {h : Host} (hnamed : Host.named? text = some h) :
    IsHostText (Http.authorityOf text).toList h := by
  by_cases hsix : ∃ a, readIpv6 text.toList = some (a, [])
  · obtain ⟨a, hread⟩ := hsix
    obtain rfl := Option.some.inj (hnamed.symm.trans (Host.named?_ipv6 hread))
    have hbrackets : ("[" ++ a.text ++ "]").toList = '[' :: (a.text.toList ++ [']']) := by
      simp [String.toList_append]
    rw [authorityOf_of_readIpv6 hread, hbrackets]
    exact isHostText_brackets (readIpv6_text a)
  · rw [authorityOf_self fun a hread => hsix ⟨a, hread⟩]
    rcases isHostText_of_named hnamed with htext | ⟨a, hread, -⟩
    · exact htext
    · exact absurd ⟨a, hread⟩ hsix

/-- Brackets make no difference to what an authority tells. -/
theorem Host.ofAuthority?_authorityOf {text : String} {h : Host}
    (hnamed : Host.ofAuthority? text = some h) :
    Host.ofAuthority? (Http.authorityOf text) = some h := by
  by_cases hsix : ∃ a, readIpv6 text.toList = some (a, [])
  · obtain ⟨a, hread⟩ := hsix
    rw [Host.ofAuthority?, Host.named?_ipv6 hread] at hnamed
    obtain rfl := Option.some.inj hnamed
    have hbrackets : "[" ++ a.text ++ "]" = String.ofList ('[' :: (a.text.toList ++ [']'])) := by
      simp [← String.toList_inj, String.toList_append]
    rw [authorityOf_of_readIpv6 hread, hbrackets, Host.ofAuthority?,
      Host.named?_bracketed (readIpv6_text a)]
  · rwa [authorityOf_self fun a hread => hsix ⟨a, hread⟩]

/-- A text that names a host makes a URL. -/
theorem parse_authorityOf (scheme : Scheme) {text : String} {h : Host}
    (hnamed : Host.named? text = some h) :
    parse scheme ("//" ++ Http.authorityOf text ++ "/") = .ok { scheme, host := h } :=
  parse_hostText scheme (isHostText_authorityOf hnamed) (.inl rfl) nofun (List.append_nil _).symm

/-- What an authority tells stands in a URL as a host and a port. -/
theorem authorityOf_parts {text : String} {h : Host} (hnamed : Host.ofAuthority? text = some h) :
    Host.named? h.text = some h ∧
      ∃ cs port, IsHostText cs h ∧ IsPort port ∧ (Http.authorityOf text).toList = cs ++ port := by
  rw [Host.ofAuthority?] at hnamed
  split at hnamed
  · next h' hself =>
    obtain rfl := Option.some.inj hnamed
    exact ⟨Host.named?_text hself, _, [], isHostText_authorityOf hself, .inl rfl,
      (List.append_nil _).symm⟩
  next hself =>
  have hsix : ∀ a, readIpv6 text.toList ≠ some (a, []) := by
    intro a hread
    rw [Host.named?_ipv6 hread] at hself
    cases hself
  rw [authorityOf_self hsix]
  obtain ⟨hsplit, hcolon⟩ := splitHost_spec false text.toList
  generalize splitHost false text.toList = place at hnamed hsplit hcolon
  obtain ⟨host, port⟩ := place
  dsimp only at hnamed hsplit hcolon
  split at hnamed
  · next hport =>
    obtain ⟨ds, rfl⟩ := List.head?_eq_some_iff.1 hport.1
    have hdigits : IsPort (':' :: ds) := .inr ⟨ds, rfl, List.all_eq_true.1 hport.2⟩
    rcases isHostText_of_named hnamed with htext | ⟨a, hread, -⟩
    · rw [String.toList_ofList] at htext
      exact ⟨Host.named?_text hnamed, host, ':' :: ds, htext, hdigits, hsplit⟩
    · -- An address without brackets has colons, but what stands before the port has none.
      rw [String.toList_ofList] at hread
      obtain ⟨front, hfront, hchars⟩ := takes_of_readIpv6 hread
      rw [List.append_nil] at hfront
      subst hfront
      have hopen : '[' ∉ host := fun hmem => not_isAddressChar_bracket.1 (hchars _ hmem)
      have hcount := two_le_count_of_readIpv6 hread
      rw [List.count_eq_zero.2 (hcolon rfl hopen)] at hcount
      exact absurd hcount (by decide)
  · cases hnamed

/-- A URL that is made from the text of an authority shows the host of it. -/
theorem ofAuthority?_of_parse {scheme : Scheme} {text : String} {u : Url} {h : Host}
    (hparse : parse scheme ("//" ++ Http.authorityOf text ++ "/") = .ok u)
    (hnamed : Host.ofAuthority? text = some h) :
    Host.ofAuthority? u.authority = some h := by
  obtain ⟨htext, cs, port, hcs, hport, hauthority⟩ := authorityOf_parts hnamed
  rw [parse_hostText scheme hcs hport.head? hport.plain hauthority] at hparse
  obtain ⟨p, -, rfl⟩ := map_eq_ok_iff.1 hparse
  generalize hu : ({ scheme, host := h, port := p } : Url) = u
  have hshown : u.authority = String.ofList (h.text.toList ++ u.portText.toList) := by
    subst hu
    rw [← String.toList_inj, String.toList_ofList, authority, String.toList_append,
      String.toList_append]
    rfl
  rw [hshown]
  exact Host.ofAuthority?_append (isHostText_text htext) (by rwa [String.ofList_toList])
    (isPort_portText u)

end NetProbe.Url
