import NetProbe.Proofs.Json.Layout
import NetProbe.Proofs.Program.WireFormat
set_option autoImplicit false

/-! # Argument schemas can grow

A program that was written for one version of the arguments is read by another one. Members that a
schema does not know are passed over, fields that are missing are at their defaults, and a field
that is left out of what is written is at its default as well: `Schema.Evolves`. Each schema is laid
out in parts, one for each field, from which this follows (`Layout.evolves`). -/

namespace NetProbe.Json

/-! ## Kinds of parts -/

namespace Part

section

variable {σ : Type} (name : String)

/-- A text. -/
def text (look : σ → String) (put : String → σ → σ) (omits : String → Bool)
    (look_put : ∀ a r, look (put a r) = a) : Part σ where
  name := name
  Content := String
  look := look
  put := put
  read := toText
  spell := .string
  omits := omits
  look_put := look_put
  read_spell := fun _ => rfl

/-- A list of texts. -/
def texts (look : σ → List String) (put : List String → σ → σ) (omits : List String → Bool)
    (look_put : ∀ a r, look (put a r) = a) : Part σ where
  name := name
  Content := List String
  look := look
  put := put
  read := toTexts
  spell := ofTexts
  omits := omits
  look_put := look_put
  read_spell := toTexts_ofTexts

/-- A flag, left out when it is off. -/
def flag (look : σ → Bool) (put : Bool → σ → σ) (look_put : ∀ a r, look (put a r) = a) :
    Part σ where
  name := name
  Content := Bool
  look := look
  put := put
  read := toFlag
  spell := .bool
  omits := fun b => !b
  look_put := look_put
  read_spell := fun _ => rfl

end

/-- The port of the endpoints to make. -/
def port : Part EndpointsArguments where
  name := "port"
  Content := UInt16
  look := EndpointsArguments.port
  put := fun x r => { r with port := x }
  read := fun v => (toBounded 65535 "u16" v).map UInt16.ofNat
  spell := fun x => ofNat x.toNat
  omits := fun _ => false
  look_put := fun _ _ => rfl
  read_spell := fun x => by
    have hx : x.toNat ≤ 65535 := by
      have := x.toNat_lt
      omega
    rw [toBounded_ofNat "u16" hx]
    exact congrArg Except.ok UInt16.ofNat_toNat

/-- A text or nothing of a request, left out when it is nothing. -/
def choice (name : String) (look : HttpArguments → Option String)
    (put : Option String → HttpArguments → HttpArguments)
    (look_put : ∀ a r, look (put a r) = a) : Part HttpArguments where
  name := name
  Content := Option String
  look := look
  put := put
  read := toOptional toText
  spell := fun x => (x.map .string).getD .null
  omits := Option.isNone
  look_put := look_put
  read_spell := fun x => by cases x <;> rfl

/-- How much of a body a request keeps. -/
def snapshotSize : Part HttpArguments where
  name := "response_body_snapshot_size"
  Content := Option UInt64
  look := HttpArguments.snapshotSize
  put := fun x r => { r with snapshotSize := x }
  read := fun v =>
    (toOptional (toBounded 18446744073709551615 "usize") v).map (Option.map UInt64.ofNat)
  spell := fun x => (x.map fun n => ofNat n.toNat).getD .null
  omits := Option.isNone
  look_put := fun _ _ => rfl
  read_spell := fun x => by
    cases x with
    | none => rfl
    | some n =>
      have hn : n.toNat ≤ 18446744073709551615 := by
        have := n.toNat_lt
        omega
      have hread := toBounded_ofNat "usize" hn
      rw [ofNat] at hread
      simp [ofNat, toOptional, hread, Except.map]

theorem field_flag {σ : Type} (name : String) (look : σ → Bool) (put : Bool → σ → σ)
    (look_put : ∀ a r, look (put a r) = a) : (flag name look put look_put).field = {
      name
      set := fun v r => (toFlag v).map fun x => put x r
      get := fun r => if look r then some (.bool true) else none } := by
  have hget (b : Bool) : (if !b then none else some (Json.bool b)) =
      if b then some (Json.bool true) else none := by
    cases b <;> rfl
  rw [field]
  congr 1
  funext r
  exact hget (look r)

theorem field_port : port.field = {
    name := "port"
    set := fun v r => (toBounded 65535 "u16" v).map fun x => { r with port := UInt16.ofNat x }
    get := fun r => some (.ofNat r.port.toNat) } := by
  have hset (x : Except Misfit Nat) (r : EndpointsArguments) :
      ((x.map UInt16.ofNat).map fun n => { r with port := n }) =
        x.map fun n => { r with port := UInt16.ofNat n } := by
    cases x <;> rfl
  rw [field]
  congr 1
  funext v r
  exact hset _ r

theorem field_choice (name : String) (look : HttpArguments → Option String)
    (put : Option String → HttpArguments → HttpArguments) (look_put : ∀ a r, look (put a r) = a) :
    (choice name look put look_put).field = HttpArguments.textField name look put := by
  have hget (x : Option String) :
      (if x.isNone then none else some ((x.map Json.string).getD .null)) = x.map .string := by
    cases x <;> rfl
  rw [field, HttpArguments.textField]
  congr 1
  funext r
  exact hget (look r)

theorem field_snapshotSize : snapshotSize.field = {
    name := "response_body_snapshot_size"
    set := fun v r => (toOptional (toBounded 18446744073709551615 "usize") v).map fun x =>
      { r with snapshotSize := x.map UInt64.ofNat }
    get := fun r => r.snapshotSize.map fun n => .ofNat n.toNat } := by
  have hset (x : Except Misfit (Option Nat)) (r : HttpArguments) :
      ((x.map (Option.map UInt64.ofNat)).map fun n => { r with snapshotSize := n }) =
        x.map fun n => { r with snapshotSize := n.map UInt64.ofNat } := by
    cases x <;> rfl
  have hget (x : Option UInt64) :
      (if x.isNone then none else some ((x.map fun n => ofNat n.toNat).getD .null)) =
        x.map fun n => ofNat n.toNat := by
    cases x <;> rfl
  rw [field]
  congr 1
  · funext v r
    exact hset _ r
  · funext r
    exact hget r.snapshotSize

end Part

end NetProbe.Json

/-! ## The layouts of the arguments -/

namespace NetProbe

open Json (Layout Part Schema)

def NoArguments.layout : Layout NoArguments.schema where
  parts := []
  fields_eq := rfl
  ordered := by decide
  apart := .nil
  omitted := by simp
  ext := fun _ => rfl

def DomainArguments.layout : Layout DomainArguments.schema where
  parts := [.text "domain" (·.domain) (fun x r => { r with domain := x }) (fun _ => false)
    fun _ _ => rfl]
  fields_eq := rfl
  ordered := by decide
  apart := List.pairwise_singleton _ _
  omitted := by simp [Part.text]
  ext := fun {r r'} h => by
    cases r
    cases r'
    simpa [Part.text] using h

def StaticLookupArguments.layout : Layout StaticLookupArguments.schema where
  parts := [.texts "addresses" (·.addresses) (fun x r => { r with addresses := x })
    (fun _ => false) fun _ _ => rfl]
  fields_eq := rfl
  ordered := by decide
  apart := List.pairwise_singleton _ _
  omitted := by simp [Part.texts]
  ext := fun {r r'} h => by
    cases r
    cases r'
    simpa [Part.texts] using h

def UdpLookupArguments.layout : Layout UdpLookupArguments.schema where
  parts := [.text "endpoint" (·.endpoint) (fun x r => { r with endpoint := x }) (fun _ => false)
    fun _ _ => rfl]
  fields_eq := rfl
  ordered := by decide
  apart := List.pairwise_singleton _ _
  omitted := by simp [Part.text]
  ext := fun {r r'} h => by
    cases r
    cases r'
    simpa [Part.text] using h

def EndpointsArguments.layout : Layout EndpointsArguments.schema where
  parts := [.port]
  fields_eq := by
    simp only [List.map_cons, Part.field_port]
    rfl
  ordered := by decide
  apart := List.pairwise_singleton _ _
  omitted := by simp [Part.port]
  ext := fun {r r'} h => by
    cases r
    cases r'
    simpa [Part.port] using h

def HandshakeArguments.layout : Layout HandshakeArguments.schema where
  parts := [
    .texts "alpn" (·.alpn) (fun x r => { r with alpn := x }) List.isEmpty fun _ _ => rfl,
    .flag "skip_verify" (·.skipVerify) (fun x r => { r with skipVerify := x }) fun _ _ => rfl,
    .text "sni" (·.sni) (fun x r => { r with sni := x }) String.isEmpty fun _ _ => rfl,
    .texts "x509_certs" (·.certificates) (fun x r => { r with certificates := x }) List.isEmpty
      fun _ _ => rfl]
  fields_eq := by
    simp only [List.map_cons, Part.field_flag]
    rfl
  ordered := by decide
  apart := by
    simp [Part.Apart, Part.texts, Part.text, Part.flag]
  omitted := by simp [Part.texts, Part.text, Part.flag, schema]
  ext := fun {r r'} h => by
    cases r
    cases r'
    simpa [Part.texts, Part.text, Part.flag] using h

def HttpArguments.layout : Layout HttpArguments.schema where
  parts := [
    .choice "accept" (·.accept) (fun x r => { r with accept := x }) fun _ _ => rfl,
    .choice "accept_language" (·.acceptLanguage) (fun x r => { r with acceptLanguage := x })
      fun _ _ => rfl,
    .choice "host" (·.host) (fun x r => { r with host := x }) fun _ _ => rfl,
    .choice "method" (·.method) (fun x r => { r with method := x }) fun _ _ => rfl,
    .choice "referer" (·.referer) (fun x r => { r with referer := x }) fun _ _ => rfl,
    .snapshotSize,
    .choice "url_host" (·.urlHost) (fun x r => { r with urlHost := x }) fun _ _ => rfl,
    .choice "url_path" (·.urlPath) (fun x r => { r with urlPath := x }) fun _ _ => rfl,
    .choice "url_scheme" (·.urlScheme) (fun x r => { r with urlScheme := x }) fun _ _ => rfl,
    .choice "user_agent" (·.userAgent) (fun x r => { r with userAgent := x }) fun _ _ => rfl]
  fields_eq := by
    simp only [List.map_cons, Part.field_choice, Part.field_snapshotSize]
    rfl
  ordered := by decide
  apart := by
    simp [Part.Apart, Part.choice, Part.snapshotSize]
  omitted := by simp [Part.choice, Part.snapshotSize, schema]
  ext := fun {r r'} h => by
    cases r
    cases r'
    simpa [Part.choice, Part.snapshotSize] using h

/-! ## Versions of a schema -/

/-- Whether programs that spell arguments for one version of a schema can be read by another one,
    which may know more fields or fewer. -/
structure Json.Schema.Evolves {σ : Type} (s : Schema σ) (parts : List (Part σ)) : Prop where
  /-- The parts are those of the fields. -/
  covers : s.fields = parts.map Part.field
  /-- Members that name no field may be put into an object, and the same is read or the same
      fault is reported. -/
  ignores : ∀ (n : Node) (members extra : List (String × Json)),
    (∀ m ∈ extra, m.1 ∉ s.fields.map Json.Field.name) →
    Node.decodeArguments s { n with
        arguments := .object (extra.foldl (fun acc m => Json.insert m.1 m.2 acc) members) } =
      Node.decodeArguments s { n with arguments := .object members }
  /-- A field that is absent may be set to its default, and the same is read or the same fault is
      reported. -/
  fills : ∀ (n : Node) (members : List (String × Json)), ∀ p ∈ parts,
    p.name ∉ members.map Prod.fst →
    Node.decodeArguments s { n with
        arguments := .object (Json.insert p.name (p.spell (p.look s.defaults)) members) } =
      Node.decodeArguments s { n with arguments := .object members }
  /-- A program with no arguments, with `null` or with the empty object for arguments has the
      defaults. -/
  starts : ∀ (lists : Bool) (members : List (String × Json)) (n : Node),
    (Json.object members).node? lists = some n →
    (Json.object members).get? "arguments" ∈ [none, some .null, some (.object [])] →
    Node.decodeArguments s n = .ok s.defaults
  /-- What is written of a record is read as this record. -/
  keeps : ∀ (n : Node) (r : σ), Node.decodeArguments s { n with arguments := s.encode r } = .ok r
  /-- What is written spells the parts of the record, and leaves out none but some that are at their
      defaults. Any other choice of parts to leave out that are at their defaults spells the record
      as well. -/
  omits : ∀ r : σ, (∃ kept : List (Part σ), kept.Sublist parts ∧
      (∀ p ∈ parts, p ∉ kept → p.look r = p.look s.defaults) ∧
      s.encode r = Json.ofMembers (kept.map (Part.member · r))) ∧
    ∀ (n : Node) (kept : List (Part σ)), kept.Sublist parts →
      (∀ p ∈ parts, p ∉ kept → p.look r = p.look s.defaults) →
      Node.decodeArguments s { n with arguments := Json.ofMembers (kept.map (Part.member · r)) } =
        .ok r

theorem Node.decodeArguments_object {σ : Type} (s : Schema σ) (n : Node)
    (members : List (String × Json)) :
    decodeArguments s { n with arguments := .object members } =
      match s.decode (.object members) with
      | .ok r => .ok r
      | .error e => .error (.malformedArguments n.func e) := rfl

theorem Json.Layout.decodeArguments_kept {σ : Type} {s : Schema σ} (L : Layout s) (n : Node)
    {kept : List (Part σ)} (hkept : kept.Sublist L.parts) {r : σ}
    (hleft : ∀ p ∈ L.parts, p ∉ kept → p.look r = p.look s.defaults) :
    Node.decodeArguments s { n with arguments := Json.ofMembers (kept.map (Part.member · r)) } =
      .ok r := by
  have hdecode := L.decode_kept hkept hleft
  rw [Json.ofMembers] at hdecode ⊢
  rw [Node.decodeArguments_object, hdecode]

theorem Json.Layout.evolves {σ : Type} {s : Schema σ} (L : Layout s) : s.Evolves L.parts where
  covers := L.fields_eq
  ignores := fun n members extra hextra => by
    rw [Node.decodeArguments_object, Node.decodeArguments_object, Schema.decode_extra hextra]
  fills := fun n members p hp habsent => by
    rw [Node.decodeArguments_object, Node.decodeArguments_object, L.decode_default hp habsent]
  starts := fun lists members n hn harguments => by
    rw [Json.node?_object, Json.nodeOf?_eq_some_iff] at hn
    obtain ⟨-, hn, -⟩ := hn
    simp only [List.mem_cons, List.not_mem_nil, or_false] at harguments
    rw [Node.decodeArguments, ← hn]
    rcases harguments with h | h | h
    · rw [h]
      rfl
    · rw [h]
      rfl
    · rw [h]
      rfl
  keeps := fun n r => by
    obtain ⟨kept, hkept, hleft, hencode⟩ := L.encode_kept r
    rw [hencode, L.decodeArguments_kept n hkept hleft]
  omits := fun r => ⟨L.encode_kept r, fun n _ hkept hleft => L.decodeArguments_kept n hkept hleft⟩

/-- The arguments of every built-in operation can grow. -/
theorem arguments_evolve :
    NoArguments.schema.Evolves NoArguments.layout.parts ∧
      DomainArguments.schema.Evolves DomainArguments.layout.parts ∧
      StaticLookupArguments.schema.Evolves StaticLookupArguments.layout.parts ∧
      UdpLookupArguments.schema.Evolves UdpLookupArguments.layout.parts ∧
      EndpointsArguments.schema.Evolves EndpointsArguments.layout.parts ∧
      HandshakeArguments.schema.Evolves HandshakeArguments.layout.parts ∧
      HttpArguments.schema.Evolves HttpArguments.layout.parts :=
  ⟨NoArguments.layout.evolves, DomainArguments.layout.evolves,
    StaticLookupArguments.layout.evolves, UdpLookupArguments.layout.evolves,
    EndpointsArguments.layout.evolves, HandshakeArguments.layout.evolves,
    HttpArguments.layout.evolves⟩

example : Node.decodeArguments EndpointsArguments.schema {
      func := "make_endpoints_for_port"
      arguments := .object [("port", .number (.whole 443)), ("since", .string "2")] } =
    .ok { port := 443 } := rfl

end NetProbe
