import NetProbe.Operation
import NetProbe.Proofs.Run.Outcomes
set_option autoImplicit false

/-! # Kinds are respected

`Operation.Maps a b` says that an operation takes values of the kinds `a` to values of the kinds
`b`, sentinels aside, and that no operation in it is ever given a value of a kind that it does not
take: `applyWith` leaves open what becomes of such a value, and it makes no difference. The
constructors of operations put such operations together to such operations. -/

namespace NetProbe

/-! ## Values of some kinds -/

/-- The kind of the connections over a transport. -/
def Transport.kind : Transport → Kind
  | tcp => .tcpConnection
  | tls => .tlsConnection
  | quic => .quicConnection

namespace Value

/-- Whether a value is of one of these kinds, sentinels aside. -/
def Fits (v : Value) (ks : Kinds) : Prop :=
  v.isSentinel = true ∨ v.kind ∈ ks.main.members

theorem Fits.congr {v : Value} {a b : Kinds} (h : a.main = b.main) (hv : v.Fits a) : v.Fits b := by
  rw [Fits, ← h]
  exact hv

theorem fits_sum {v : Value} {k : Kind} (hk : k.isControl = false) :
    v.Fits (k : Kinds) ↔ v.isSentinel = true ∨ v.kind = k := by
  have hmain : (k : Kinds).main.members = [k] := by
    simp [Kinds.main, Kinds.sum, Kinds.append, Kinds.insert, Kinds.empty, Kind.insert, hk]
  rw [Fits, hmain, List.mem_singleton]

theorem fits_of_kind {v : Value} {k : Kind} (hk : k.isControl = false) (h : v.kind = k) :
    v.Fits (k : Kinds) :=
  (fits_sum hk).2 (.inr h)

theorem fits_connection {c : Connection} {t : Transport} (h : c.transport = t) :
    (connection c).Fits (t.kind : Kinds) := by
  refine fits_of_kind ?_ ?_
  · cases t <;> rfl
  · rw [kind, h]
    cases t <;> rfl

/-- Whether a value that fits is taken, or passed on. -/
def Takes {α : Type} (accept : Value → Option α) (ks : Kinds) : Prop :=
  ∀ v, v.Fits ks → v.isSentinel = true ∨ (accept v).isSome = true

theorem takes_of_kind {α : Type} {accept : Value → Option α} {k : Kind} (hk : k.isControl = false)
    (h : ∀ v, (accept v).isSome = (v.kind == k)) : Takes accept k := by
  intro v hv
  refine ((fits_sum hk).1 hv).imp_right fun hkind => ?_
  rw [h, hkind, BEq.rfl]

theorem takes_void? : Takes void? Kind.void := takes_of_kind rfl fun v => by
  rcases v with _ | _ | _ | _ | _ | ⟨_ | _ | _⟩ | _ | _ | _ | _ <;> rfl

theorem takes_lookup? : Takes lookup? Kind.lookupInput := takes_of_kind rfl fun v => by
  rcases v with _ | _ | _ | _ | _ | ⟨_ | _ | _⟩ | _ | _ | _ | _ <;> rfl

theorem takes_resolved? : Takes resolved? Kind.lookupOutput := takes_of_kind rfl fun v => by
  rcases v with _ | _ | _ | _ | _ | ⟨_ | _ | _⟩ | _ | _ | _ | _ <;> rfl

theorem takes_endpoint? : Takes endpoint? Kind.endpoint := takes_of_kind rfl fun v => by
  rcases v with _ | _ | _ | _ | _ | ⟨_ | _ | _⟩ | _ | _ | _ | _ <;> rfl

theorem takes_endpoints? : Takes endpoints? Kind.endpoints := takes_of_kind rfl fun v => by
  rcases v with _ | _ | _ | _ | _ | ⟨_ | _ | _⟩ | _ | _ | _ | _ <;> rfl

theorem takes_connectionOver? : Takes (connectionOver? .tcp) Kind.tcpConnection :=
  takes_of_kind rfl fun v => by
    rcases v with _ | _ | _ | _ | _ | ⟨_ | _ | _⟩ | _ | _ | _ | _ <;> rfl

theorem isSome_connection? (v : Value) : (v.connection?).isSome =
    [Kind.tcpConnection, .tlsConnection, .quicConnection].contains v.kind := by
  rcases v with _ | _ | _ | _ | _ | ⟨_ | _ | _⟩ | _ | _ | _ | _ <;> rfl

/-- A connection is taken over each transport. -/
theorem takes_connection? {k : Kind}
    (hk : k ∈ [Kind.tcpConnection, .tlsConnection, .quicConnection]) : Takes connection? k := by
  have hcontrol : k.isControl = false := by
    revert k
    decide
  intro v hv
  refine ((fits_sum hcontrol).1 hv).imp_right fun hkind => ?_
  rw [isSome_connection?, hkind]
  exact List.contains_iff_mem.2 hk

end Value

/-! ## What becomes of values of other kinds -/

/-- Like `typed`, but what becomes of a value of another kind is left open. -/
def typedWith {α : Type} (refuse : String → Value → Activity) (name : String)
    (accept : Value → Option α) (call : α → Activity) (v : Value) : Activity :=
  if v.isSentinel then .done v
  else match accept v with
    | some a => call a
    | none => refuse name v

namespace Leaf

def measureWith {α β : Type} (refuse : String → Value → Activity) (l : Leaf)
    (accept : Value → Option α) (wrap : β → Value) (script : α → Script (Outcome β)) :
    Value → Activity :=
  typedWith refuse l.name accept fun a => outcomeActivity l.name wrap (script a)

def applyWith (refuse : String → Value → Activity) (s : Scope) (l : Leaf) : Value → Activity :=
  match l with
  | domainName d => typedWith refuse l.name Value.void? fun _ => .done (.lookup d)
  | makeEndpoints port =>
    typedWith refuse l.name Value.resolved? fun r => .done (.endpoints (endpointsOf port r))
  | lookupSystem => l.measureWith refuse Value.lookup? .resolved (SystemLookup.call s)
  | lookupUdp resolver =>
    l.measureWith refuse Value.lookup? .resolved (UdpLookup.call s resolver)
  | lookupStatic ips => l.measureWith refuse Value.lookup? .resolved (StaticLookup.call ips)
  | tcpConnect => l.measureWith refuse Value.endpoint? .connection (TcpConnect.call s)
  | tlsHandshake o =>
    l.measureWith refuse (Value.connectionOver? .tcp) .connection (TlsHandshake.call s o)
  | quicHandshake o =>
    l.measureWith refuse Value.endpoint? .connection (QuicHandshake.call s o)
  | httpTransaction a =>
    l.measureWith refuse Value.connection? .response (HttpTransaction.call s a)

end Leaf

/-! ## Connections over the right transport -/

/-- A connection over this transport, if it is one. -/
def Outcome.Over (t : Transport) (o : Outcome Connection) : Prop :=
  ∀ c, o = .output c → c.transport = t

theorem TcpConnect.returns_call (s : Scope) (e : Endpoint) :
    (TcpConnect.call s e).Returns (Outcome.Over .tcp) := by
  rw [TcpConnect.call]
  refine Script.returns_bind fun trace => Script.returns_bind fun _ =>
    Script.returns_bind fun child => Script.returns_bind fun answer =>
    Script.returns_bind fun _ => Script.returns_bind fun _ => ?_
  split
  · exact fun c hc => by cases hc
  · refine Script.returns_bind fun stream => Script.returns_bind fun slot => ?_
    rintro c ⟨⟩
    rfl

theorem TlsHandshake.returns_run (s : Scope) (options : HandshakeOptions) (offer : Tls.Offer)
    (c : Connection) (stream : Stream) :
    (TlsHandshake.run s options offer c stream).Returns (Outcome.Over .tls) := by
  rw [TlsHandshake.run]
  refine Script.returns_bind fun _ => Script.returns_bind fun child =>
    Script.returns_bind fun answer => Script.returns_bind fun _ => Script.returns_bind fun _ => ?_
  split
  · exact fun c hc => by cases hc
  · refine Script.returns_bind fun slot => ?_
    rintro c ⟨⟩
    rfl

theorem TlsHandshake.returns_call (s : Scope) (options : HandshakeOptions) (c : Connection) :
    (TlsHandshake.call s options c).Returns (Outcome.Over .tls) := by
  rw [TlsHandshake.call]
  split
  · exact fun c hc => by cases hc
  · split
    · exact fun c hc => by cases hc
    · refine Script.returns_bind fun stream => ?_
      split
      · exact fun c hc => by cases hc
      · exact TlsHandshake.returns_run s options _ c _

theorem QuicHandshake.returns_call (s : Scope) (options : HandshakeOptions) (e : Endpoint) :
    (QuicHandshake.call s options e).Returns (Outcome.Over .quic) := by
  rw [QuicHandshake.call]
  split
  · exact fun c hc => by cases hc
  · refine Script.returns_bind fun trace => Script.returns_bind fun _ =>
      Script.returns_bind fun child => Script.returns_bind fun result =>
      Script.returns_bind fun _ => Script.returns_bind fun _ => ?_
    split
    · exact fun c hc => by cases hc
    · refine Script.returns_bind fun stream => Script.returns_bind fun slot => ?_
      rintro c ⟨⟩
      rfl

namespace Operation

mutual

/-- Like `apply`, but what becomes of a value that an operation does not take is left open. -/
def applyWith (refuse : String → Value → Activity) (s : Scope) : Operation → Value → Activity
  | identity, v => .done v
  | discard, v => .done (if v.isSentinel then v else .void)
  | leaf l, v => l.applyWith refuse s v
  | compose ops, v => applyAllWith refuse s ops v
  | lookupParallel ops, v =>
    typedWith refuse "dns_lookup_parallel" Value.lookup? (fun d =>
      Activity.all lookupWidth (branchesWith refuse s ops (.lookup d)) fun vs =>
        .done (mergeLookups d vs)) v
  | measureDomains ops, v =>
    typedWith refuse "measure_multiple_domains" Value.void? (fun _ =>
      Activity.all measureWidth (branchesWith refuse s ops .void) fun vs =>
        .done (exceptionOrVoid vs)) v
  | measureEndpoints ops, v =>
    typedWith refuse "measure_multiple_endpoints" Value.resolved? (fun r =>
      Activity.all measureWidth (branchesWith refuse s ops (.resolved r)) fun vs =>
        .done (exceptionOrVoid vs)) v
  | endpointPipeline ops, v =>
    typedWith refuse "new_endpoint_pipeline" Value.endpoints? (fun es =>
      Activity.all measureWidth (es.map fun e => applyAllWith refuse s ops (.endpoint e)) fun vs =>
        .done (exceptionOrVoid vs)) v
  | custom f, v => f s v

def applyAllWith (refuse : String → Value → Activity) (s : Scope) :
    List Operation → Value → Activity
  | [], v => .done v
  | op :: ops, v => (applyWith refuse s op v).bind (applyAllWith refuse s ops)

def branchesWith (refuse : String → Value → Activity) (s : Scope) :
    List Operation → Value → List Activity
  | [], _ => []
  | op :: ops, v => applyWith refuse s op v :: branchesWith refuse s ops v

end

/-- What becomes of such a value in `apply`. -/
def refusal (name : String) (v : Value) : Activity :=
  .done (Value.unexpected name v)

mutual

theorem applyWith_refusal (s : Scope) :
    ∀ (op : Operation) (v : Value), op.applyWith refusal s v = op.apply s v
  | identity, v => by rw [applyWith, apply]
  | discard, v => by rw [applyWith, apply]
  | leaf l, v => by
    rw [applyWith, apply]
    cases l <;> rfl
  | compose ops, v => by
    rw [applyWith, apply]
    exact congrFun (applyAllWith_refusal s ops) v
  | lookupParallel ops, v => by
    rw [applyWith, apply, branchesWith_refusal s ops]
    rfl
  | measureDomains ops, v => by
    rw [applyWith, apply, branchesWith_refusal s ops]
    rfl
  | measureEndpoints ops, v => by
    rw [applyWith, apply, branchesWith_refusal s ops]
    rfl
  | endpointPipeline ops, v => by
    rw [applyWith, apply, applyAllWith_refusal s ops]
    rfl
  | custom f, v => by rw [applyWith, apply]

theorem applyAllWith_refusal (s : Scope) :
    ∀ ops : List Operation, applyAllWith refusal s ops = applyAll s ops
  | [] => by
    funext v
    rw [applyAllWith, applyAll]
  | op :: ops => by
    funext v
    rw [applyAllWith, applyAll, applyWith_refusal s op v, applyAllWith_refusal s ops]

theorem branchesWith_refusal (s : Scope) :
    ∀ ops : List Operation, branchesWith refusal s ops = branches s ops
  | [] => by
    funext v
    rw [branchesWith, branches]
  | op :: ops => by
    funext v
    rw [branchesWith, branches, applyWith_refusal s op v, branchesWith_refusal s ops]

end

/-! ## Operations between kinds -/

/-- The operation takes values of the kinds `a` to values of the kinds `b` and refuses none on the
    way. -/
structure Maps (op : Operation) (a b : Kinds) : Prop where
  yields : ∀ s v, v.Fits a → (op.apply s v).Yields (·.Fits b)
  accepts : ∀ refuse s v, v.Fits a → op.applyWith refuse s v = op.apply s v

variable {op : Operation} {ops : List Operation} {a b c : Kinds}

/-- Control kinds do not count. -/
theorem Maps.congr {a' b' : Kinds} (ha : a.main = a'.main) (hb : b.main = b'.main)
    (h : op.Maps a b) : op.Maps a' b' where
  yields s v hv := (h.yields s v (hv.congr ha.symm)).imp fun _ hw => hw.congr hb
  accepts refuse s v hv := h.accepts refuse s v (hv.congr ha.symm)

theorem maps_identity (h : a.main = b.main) : identity.Maps a b where
  yields s v hv := by
    rw [apply]
    exact hv.congr h
  accepts refuse s v _ := by rw [applyWith, apply]

theorem maps_discard : discard.Maps a Kind.void where
  yields s v _ := by
    rw [apply]
    show Value.Fits _ _
    split
    · next hv => exact .inl hv
    · exact Value.fits_of_kind rfl rfl
  accepts refuse s v _ := by rw [applyWith, apply]

section Typed

variable {α : Type} {name : String} {accept : Value → Option α} {call : α → Activity} {v : Value}

theorem yields_typed (htakes : Value.Takes accept a) (hcall : ∀ x, (call x).Yields (·.Fits b))
    (hv : v.Fits a) : (typed name accept call v).Yields (·.Fits b) := by
  rw [typed]
  by_cases hsentinel : v.isSentinel = true
  · rw [if_pos hsentinel]
    exact .inl hsentinel
  · obtain ⟨x, hx⟩ := Option.isSome_iff_exists.1 ((htakes v hv).resolve_left hsentinel)
    rw [if_neg hsentinel, hx]
    exact hcall x

theorem typedWith_eq {refuse : String → Value → Activity} {callWith : α → Activity}
    (htakes : Value.Takes accept a) (hcall : ∀ x, callWith x = call x) (hv : v.Fits a) :
    typedWith refuse name accept callWith v = typed name accept call v := by
  rw [typed, typedWith, funext hcall]
  by_cases hsentinel : v.isSentinel = true
  · rw [if_pos hsentinel, if_pos hsentinel]
  · obtain ⟨x, hx⟩ := Option.isSome_iff_exists.1 ((htakes v hv).resolve_left hsentinel)
    rw [hx]

end Typed

/-! ### Sequences -/

/-- Operations one after the other, each of which takes what the one before it gives. -/
inductive Chain : Kinds → List Operation → Kinds → Prop
  | nil {a b : Kinds} : a.main = b.main → Chain a [] b
  | cons {op : Operation} {ops : List Operation} {a b c : Kinds} :
      op.Maps a b → Chain b ops c → Chain a (op :: ops) c

theorem Chain.congr (h : Chain a ops b) (ha : a.main = c.main) : Chain c ops b := by
  cases h with
  | nil hab => exact .nil (ha.symm.trans hab)
  | cons hop hrest => exact .cons (hop.congr ha rfl) hrest

theorem Chain.yields (h : Chain a ops b) (s : Scope) {v : Value} (hv : v.Fits a) :
    (applyAll s ops v).Yields (·.Fits b) := by
  induction h generalizing v with
  | nil hab =>
    rw [applyAll]
    exact hv.congr hab
  | cons hop _ ih =>
    rw [applyAll]
    exact .bind (fun w hw => ih hw) (hop.yields s v hv)

theorem Chain.accepts (h : Chain a ops b) (refuse : String → Value → Activity) (s : Scope)
    {v : Value} (hv : v.Fits a) : applyAllWith refuse s ops v = applyAll s ops v := by
  induction h generalizing v with
  | nil _ => rw [applyAllWith, applyAll]
  | cons hop _ ih =>
    rw [applyAllWith, applyAll, hop.accepts refuse s v hv]
    -- The rest is given nothing but values that the first operation comes to.
    exact Activity.bind_congr (fun w hw => ih hw) (hop.yields s v hv)

theorem maps_compose (h : Chain a ops b) : (compose ops).Maps a b where
  yields s v hv := by
    rw [apply]
    exact h.yields s hv
  accepts refuse s v hv := by
    rw [applyWith, apply]
    exact h.accepts refuse s hv

/-! ### Groups -/

theorem branchesWith_eq (h : ∀ op ∈ ops, op.Maps a b) (refuse : String → Value → Activity)
    (s : Scope) {v : Value} (hv : v.Fits a) : branchesWith refuse s ops v = branches s ops v := by
  induction ops with
  | nil => rw [branchesWith, branches]
  | cons op ops ih =>
    rw [branchesWith, branches, (h op List.mem_cons_self).accepts refuse s v hv,
      ih fun o ho => h o (List.mem_cons_of_mem op ho)]

theorem fits_exceptionOrVoid (vs : List Value) : (exceptionOrVoid vs).Fits Kind.void := by
  rw [exceptionOrVoid]
  split
  · exact .inl rfl
  · exact Value.fits_of_kind rfl rfl

theorem fits_mergeLookups (domain : String) (vs : List Value) :
    (mergeLookups domain vs).Fits Kind.lookupOutput := by
  rw [mergeLookups]
  split
  · exact .inl rfl
  · exact Value.fits_of_kind rfl rfl

theorem maps_lookupParallel (h : ∀ op ∈ ops, op.Maps Kind.lookupInput b) :
    (lookupParallel ops).Maps Kind.lookupInput Kind.lookupOutput where
  yields s v hv := by
    rw [apply]
    exact yields_typed Value.takes_lookup? (fun x vs => fits_mergeLookups x vs) hv
  accepts refuse s v hv := by
    rw [applyWith, apply]
    refine typedWith_eq Value.takes_lookup? (fun x => ?_) hv
    rw [branchesWith_eq h refuse s (Value.fits_of_kind rfl rfl)]

theorem maps_measureDomains (h : ∀ op ∈ ops, op.Maps Kind.void b) :
    (measureDomains ops).Maps Kind.void Kind.void where
  yields s v hv := by
    rw [apply]
    exact yields_typed Value.takes_void? (fun x vs => fits_exceptionOrVoid vs) hv
  accepts refuse s v hv := by
    rw [applyWith, apply]
    refine typedWith_eq Value.takes_void? (fun x => ?_) hv
    rw [branchesWith_eq h refuse s (Value.fits_of_kind rfl rfl)]

theorem maps_measureEndpoints (h : ∀ op ∈ ops, op.Maps Kind.lookupOutput b) :
    (measureEndpoints ops).Maps Kind.lookupOutput Kind.void where
  yields s v hv := by
    rw [apply]
    exact yields_typed Value.takes_resolved? (fun x vs => fits_exceptionOrVoid vs) hv
  accepts refuse s v hv := by
    rw [applyWith, apply]
    refine typedWith_eq Value.takes_resolved? (fun x => ?_) hv
    rw [branchesWith_eq h refuse s (Value.fits_of_kind rfl rfl)]

theorem maps_endpointPipeline (h : Chain Kind.endpoint ops b) :
    (endpointPipeline ops).Maps Kind.endpoints Kind.void where
  yields s v hv := by
    rw [apply]
    exact yields_typed Value.takes_endpoints? (fun x vs => fits_exceptionOrVoid vs) hv
  accepts refuse s v hv := by
    rw [applyWith, apply]
    refine typedWith_eq Value.takes_endpoints? (fun x => ?_) hv
    rw [List.map_congr_left fun e _ => h.accepts refuse s (Value.fits_of_kind rfl rfl)]

/-! ### Leaves -/

theorem yields_outcomeActivity {α : Type} {name : String} {wrap : α → Value}
    {script : Script (Outcome α)}
    (h : script.Returns fun o => ∀ x, o = .output x → (wrap x).Fits b) :
    (outcomeActivity name wrap script).Yields (·.Fits b) := by
  refine Script.Returns.yields (h.bind fun o ho => ?_)
  cases o with
  | output x => exact ho x rfl
  | failed _ => exact .inl rfl
  | refused _ => exact .inl rfl

/-- A measurement with outputs of some kinds. -/
theorem maps_measure {α β : Type} {l : Leaf} {accept : Value → Option α} {wrap : β → Value}
    {script : Scope → α → Script (Outcome β)}
    (happly : ∀ s, l.apply s = l.measure accept wrap (script s))
    (hwith : ∀ refuse s, l.applyWith refuse s = l.measureWith refuse accept wrap (script s))
    (htakes : Value.Takes accept a)
    (h : ∀ s x, (script s x).Returns fun o => ∀ y, o = .output y → (wrap y).Fits b) :
    (leaf l).Maps a b where
  yields s v hv := by
    rw [apply, happly]
    exact yields_typed htakes (fun x => yields_outcomeActivity (h s x)) hv
  accepts refuse s v hv := by
    rw [applyWith, apply, happly, hwith]
    exact typedWith_eq htakes (fun _ => rfl) hv

/-- A measurement all of whose outputs are of one kind. -/
theorem maps_measure_of_kind {α β : Type} {l : Leaf} {accept : Value → Option α} {wrap : β → Value}
    {k : Kind} {script : Scope → α → Script (Outcome β)}
    (happly : ∀ s, l.apply s = l.measure accept wrap (script s))
    (hwith : ∀ refuse s, l.applyWith refuse s = l.measureWith refuse accept wrap (script s))
    (htakes : Value.Takes accept a) (hk : k.isControl = false) (h : ∀ y, (wrap y).kind = k) :
    (leaf l).Maps a k :=
  maps_measure happly hwith htakes fun s x =>
    (script s x).returns_true.imp fun _ _ y _ => Value.fits_of_kind hk (h y)

theorem maps_domainName (domain : String) :
    (leaf (.domainName domain)).Maps Kind.void Kind.lookupInput where
  yields s v hv := by
    rw [apply]
    exact yields_typed Value.takes_void? (fun _ => Value.fits_of_kind rfl rfl) hv
  accepts refuse s v hv := by
    rw [applyWith, apply]
    exact typedWith_eq Value.takes_void? (fun _ => rfl) hv

theorem maps_makeEndpoints (port : UInt16) :
    (leaf (.makeEndpoints port)).Maps Kind.lookupOutput Kind.endpoints where
  yields s v hv := by
    rw [apply]
    exact yields_typed Value.takes_resolved? (fun _ => Value.fits_of_kind rfl rfl) hv
  accepts refuse s v hv := by
    rw [applyWith, apply]
    exact typedWith_eq Value.takes_resolved? (fun _ => rfl) hv

theorem maps_lookupSystem : (leaf .lookupSystem).Maps Kind.lookupInput Kind.lookupOutput :=
  maps_measure_of_kind (fun _ => rfl) (fun _ _ => rfl) Value.takes_lookup? rfl fun _ => rfl

theorem maps_lookupUdp (resolver : Resolver) :
    (leaf (.lookupUdp resolver)).Maps Kind.lookupInput Kind.lookupOutput :=
  maps_measure_of_kind (fun _ => rfl) (fun _ _ => rfl) Value.takes_lookup? rfl fun _ => rfl

theorem maps_lookupStatic (ips : List Ip) :
    (leaf (.lookupStatic ips)).Maps Kind.lookupInput Kind.lookupOutput :=
  maps_measure_of_kind (fun _ => rfl) (fun _ _ => rfl) Value.takes_lookup? rfl fun _ => rfl

theorem maps_httpTransaction {k : Kind} (arguments : HttpArguments)
    (hk : k ∈ [Kind.tcpConnection, .tlsConnection, .quicConnection]) :
    (leaf (.httpTransaction arguments)).Maps k Kind.httpResponse :=
  maps_measure_of_kind (fun _ => rfl) (fun _ _ => rfl) (Value.takes_connection? hk) rfl fun _ => rfl

theorem maps_tcpConnect : (leaf .tcpConnect).Maps Kind.endpoint Kind.tcpConnection :=
  maps_measure (fun _ => rfl) (fun _ _ => rfl) Value.takes_endpoint? fun s e =>
    (TcpConnect.returns_call s e).imp fun _ ho c hc => Value.fits_connection (ho c hc)

theorem maps_tlsHandshake (options : HandshakeOptions) :
    (leaf (.tlsHandshake options)).Maps Kind.tcpConnection Kind.tlsConnection :=
  maps_measure (fun _ => rfl) (fun _ _ => rfl) Value.takes_connectionOver? fun s c =>
    (TlsHandshake.returns_call s options c).imp fun _ ho c hc => Value.fits_connection (ho c hc)

theorem maps_quicHandshake (options : HandshakeOptions) :
    (leaf (.quicHandshake options)).Maps Kind.endpoint Kind.quicConnection :=
  maps_measure (fun _ => rfl) (fun _ _ => rfl) Value.takes_endpoint? fun s e =>
    (QuicHandshake.returns_call s options e).imp fun _ ho c hc => Value.fits_connection (ho c hc)

end Operation

end NetProbe
