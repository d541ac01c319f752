import Mathlib.Data.List.Nodup
import NetProbe.Program.Arguments
set_option autoImplicit false

/-! # Records survive being written

Reading back what a schema has written sets the fields of the record one after the other, in the
order of the schema: `Schema.decode_encode`. A schema is lawful when this ends with the record
itself. A field that is left out stays as it is in the defaults. -/

namespace NetProbe.Json

/-! ## Members in order -/

/-- A key behind all others comes last. -/
theorem insert_of_forall_lt {key : String} {value : Json} {ms : List (String × Json)}
    (h : ∀ m ∈ ms, m.1 < key) : insert key value ms = ms ++ [(key, value)] := by
  induction ms with
  | nil => rfl
  | cons m ms ih =>
    have hm : m.1 < key := h m List.mem_cons_self
    have hlt : ¬ key < m.1 := String.lt_asymm hm
    have hne : key ≠ m.1 := by
      rintro rfl
      exact String.lt_irrefl _ hm
    rw [insert, if_neg hlt, if_neg hne, ih fun n hn => h n (List.mem_cons_of_mem m hn)]
    rfl

theorem ofMembers_of_pairwise {ms : List (String × Json)}
    (h : ms.Pairwise fun m n => m.1 < n.1) : ofMembers ms = .object ms := by
  have hfold (acc ms : List (String × Json)) (h : (acc ++ ms).Pairwise fun m n => m.1 < n.1) :
      ms.foldl (fun acc m => insert m.1 m.2 acc) acc = acc ++ ms := by
    induction ms generalizing acc with
    | nil => rw [List.foldl_nil, List.append_nil]
    | cons m ms ih =>
      have hacc : ∀ n ∈ acc, n.1 < m.1 := fun n hn =>
        (List.pairwise_append.1 h).2.2 n hn m List.mem_cons_self
      have hsplit : acc ++ m :: ms = (acc ++ [m]) ++ ms := by simp
      rw [List.foldl_cons, insert_of_forall_lt hacc, hsplit]
      exact ih (acc ++ [m]) (hsplit ▸ h)
  rw [ofMembers, hfold [] ms h, List.nil_append]

/-! ## Reading what was written -/

/-- Sets a field of the second record to what the first one writes for it. -/
def Field.put {σ : Type} (f : Field σ) (r d : σ) : Except Misfit σ :=
  match f.get r with
  | some v => f.set v d
  | none => .ok d

theorem Field.foldlM_put {σ : Type} {f : Field σ} {r d d' : σ} (h : f.put r d = .ok d')
    (fs : List (Field σ)) :
    (f :: fs).foldlM (fun d f => f.put r d) d = fs.foldlM (fun d f => f.put r d) d' := by
  rw [List.foldlM_cons, h]
  rfl

namespace Schema

variable {σ : Type} {s : Schema σ}

/-- Whether the names of the fields are in ascending order. -/
def Ordered (s : Schema σ) : Prop :=
  (s.fields.map Field.name).Pairwise (· < ·)

instance : Decidable s.Ordered :=
  inferInstanceAs (Decidable ((s.fields.map Field.name).Pairwise (· < ·)))

/-- Whether a record is read back as it was written. -/
def Lawful (s : Schema σ) : Prop :=
  ∀ r, s.decode (s.encode r) = .ok r

theorem setMember_of_mem (hs : s.Ordered) {f : Field σ} (hf : f ∈ s.fields) (v : Json) (d : σ) :
    s.setMember d (f.name, v) = f.set v d := by
  rw [setMember]
  cases hfind : s.fields.find? fun g => g.name == f.name with
  | none =>
    have := List.find?_eq_none.1 hfind f hf
    simp at this
  | some g =>
    have hg : g ∈ s.fields := List.mem_of_find?_eq_some hfind
    have hname : g.name = f.name := by simpa using List.find?_some hfind
    have hnodup : (s.fields.map Field.name).Nodup := by
      refine List.Pairwise.imp (fun {a b} hlt => ?_) hs
      rintro rfl
      exact String.lt_irrefl a hlt
    rw [List.inj_on_of_nodup_map hnodup hg hf hname]

/-- The members that are written for some fields set these fields. -/
theorem foldlM_setMember (hs : s.Ordered) (r : σ) {fs : List (Field σ)}
    (hfs : ∀ f ∈ fs, f ∈ s.fields) (d : σ) :
    (fs.filterMap fun f => (f.get r).map fun v => (f.name, v)).foldlM s.setMember d =
      fs.foldlM (fun d f => f.put r d) d := by
  induction fs generalizing d with
  | nil => rfl
  | cons f fs ih =>
    have hrest := ih fun g hg => hfs g (List.mem_cons_of_mem f hg)
    cases hget : f.get r with
    | none =>
      have hput : f.put r d = .ok d := by rw [Field.put, hget]
      rw [List.filterMap_cons_none (by rw [hget, Option.map_none]), List.foldlM_cons, hput, hrest]
      rfl
    | some v =>
      have hput : f.put r d = f.set v d := by rw [Field.put, hget]
      have hset := setMember_of_mem hs (hfs f List.mem_cons_self) v d
      rw [List.filterMap_cons_some (by rw [hget, Option.map_some]), List.foldlM_cons,
        List.foldlM_cons, hput, hset]
      cases f.set v d with
      | error e => rfl
      | ok d' => exact hrest d'

/-- Reading what was written puts the fields of the record into the defaults. -/
theorem decode_encode (hs : s.Ordered) (r : σ) :
    s.decode (s.encode r) = s.fields.foldlM (fun d f => f.put r d) s.defaults := by
  have hsorted : (s.fields.filterMap fun f =>
      (f.get r).map fun v => (f.name, v)).Pairwise fun m n => m.1 < n.1 := by
    rw [List.pairwise_filterMap]
    refine (List.pairwise_map.1 hs).imp fun hlt m hm n hn => ?_
    obtain ⟨v, -, rfl⟩ := Option.map_eq_some_iff.1 hm
    obtain ⟨w, -, rfl⟩ := Option.map_eq_some_iff.1 hn
    exact hlt
  rw [encode, ofMembers_of_pairwise hsorted, decode]
  exact foldlM_setMember hs r (fun f hf => hf) s.defaults

end Schema

/-! ## What fields may hold -/

@[simp] theorem toTexts_ofTexts (xs : List String) : toTexts (ofTexts xs) = .ok xs := by
  rw [ofTexts, ofList, toTexts]
  induction xs with
  | nil => rfl
  | cons x xs ih =>
    rw [List.map_cons, List.mapM_cons, ih]
    rfl

@[simp] theorem toBounded_ofNat {n limit : Nat} (expected : String) (h : n ≤ limit) :
    toBounded limit expected (ofNat n) = .ok n := by
  rw [ofNat, toBounded, if_pos ⟨by omega, by omega⟩]
  rfl

end NetProbe.Json

/-! ## Arguments -/

namespace NetProbe

open Json (Field Schema)

theorem NoArguments.lawful : NoArguments.schema.Lawful := fun _ => rfl

theorem DomainArguments.lawful : DomainArguments.schema.Lawful := fun r => by
  rw [Schema.decode_encode (by decide)]
  rfl

theorem StaticLookupArguments.lawful : StaticLookupArguments.schema.Lawful := fun r => by
  rw [Schema.decode_encode (by decide)]
  simp [schema, Field.put, Except.map]

theorem UdpLookupArguments.lawful : UdpLookupArguments.schema.Lawful := fun r => by
  rw [Schema.decode_encode (by decide)]
  rfl

theorem EndpointsArguments.lawful : EndpointsArguments.schema.Lawful := fun r => by
  have hport : r.port.toNat ≤ 65535 := by
    have := r.port.toNat_lt
    omega
  rw [Schema.decode_encode (by decide)]
  simp [schema, Field.put, Except.map, hport]

namespace HandshakeArguments

variable {d : HandshakeArguments} (name : String) (r : HandshakeArguments)

theorem put_texts (get : HandshakeArguments → List String)
    (set : List String → HandshakeArguments → HandshakeArguments) (h : set [] d = d) :
    Field.put {
        name
        set := fun v r => (Json.toTexts v).map fun x => set x r
        get := fun r => if (get r).isEmpty then none else some (Json.ofTexts (get r)) } r d =
      .ok (set (get r) d) := by
  cases hget : get r with
  | nil => simp [Field.put, hget, h]
  | cons x xs => simp [Field.put, hget, Except.map]

theorem put_text (get : HandshakeArguments → String)
    (set : String → HandshakeArguments → HandshakeArguments) (h : set "" d = d) :
    Field.put {
        name
        set := fun v r => (Json.toText v).map fun x => set x r
        get := fun r => if (get r).isEmpty then none else some (.string (get r)) } r d =
      .ok (set (get r) d) := by
  by_cases hget : get r = ""
  · simp [Field.put, hget, h]
  · simp [Field.put, hget, Except.map, Json.toText]

theorem put_flag (get : HandshakeArguments → Bool)
    (set : Bool → HandshakeArguments → HandshakeArguments) (h : set false d = d) :
    Field.put {
        name
        set := fun v r => (Json.toFlag v).map fun x => set x r
        get := fun r => if get r then some (.bool true) else none } r d =
      .ok (set (get r) d) := by
  cases hget : get r with
  | false => simp [Field.put, hget, h]
  | true => simp [Field.put, hget, Except.map, Json.toFlag]

theorem lawful : schema.Lawful := fun r => by
  rw [Schema.decode_encode (by decide), schema,
    Field.foldlM_put (put_texts _ r (·.alpn) (fun x r => { r with alpn := x }) rfl),
    Field.foldlM_put (put_flag _ r (·.skipVerify) (fun x r => { r with skipVerify := x }) rfl),
    Field.foldlM_put (put_text _ r (·.sni) (fun x r => { r with sni := x }) rfl),
    Field.foldlM_put (put_texts _ r (·.certificates) (fun x r => { r with certificates := x }) rfl)]
  rfl

end HandshakeArguments

namespace HttpArguments

theorem put_textField (name : String) (get : HttpArguments → Option String)
    (set : Option String → HttpArguments → HttpArguments) (r : HttpArguments) {d : HttpArguments}
    (h : set none d = d) : (textField name get set).put r d = .ok (set (get r) d) := by
  cases hget : get r with
  | none =>
    rw [h]
    simp only [Field.put, textField, hget]
    rfl
  | some x =>
    simp only [Field.put, textField, hget]
    rfl

theorem put_snapshotSize (name : String) (r : HttpArguments) {d : HttpArguments}
    (h : d.snapshotSize = none) :
    Field.put {
        name
        set := fun v r =>
          (Json.toOptional (Json.toBounded 18446744073709551615 "usize") v).map fun x =>
            { r with snapshotSize := x.map UInt64.ofNat }
        get := fun r => r.snapshotSize.map fun n => .ofNat n.toNat } r d =
      .ok { d with snapshotSize := r.snapshotSize } := by
  cases hget : r.snapshotSize with
  | none =>
    rw [← h]
    simp only [Field.put, hget, Option.map_none]
  | some n =>
    have hn : n.toNat ≤ 18446744073709551615 := by
      have := n.toNat_lt
      omega
    have hread := Json.toBounded_ofNat "usize" hn
    simp only [Json.ofNat] at hread
    simp [Field.put, hget, Json.ofNat, Json.toOptional, hread, Except.map]

theorem lawful : schema.Lawful := fun r => by
  rw [Schema.decode_encode (by decide), schema]
  -- Each field is still at its default when its turn comes, so leaving it out changes nothing.
  rw [Field.foldlM_put (put_textField _ _ _ r rfl), Field.foldlM_put (put_textField _ _ _ r rfl),
    Field.foldlM_put (put_textField _ _ _ r rfl), Field.foldlM_put (put_textField _ _ _ r rfl),
    Field.foldlM_put (put_textField _ _ _ r rfl), Field.foldlM_put (put_snapshotSize _ r rfl),
    Field.foldlM_put (put_textField _ _ _ r rfl), Field.foldlM_put (put_textField _ _ _ r rfl),
    Field.foldlM_put (put_textField _ _ _ r rfl), Field.foldlM_put (put_textField _ _ _ r rfl)]
  rfl

end HttpArguments

end NetProbe
