import UsnetSockets.Resolve.Lookup

/-!
# What lookups do

A thread looks up names and addresses, one after the other. Whatever it looks up, it makes requests,
each under the next id, and whatever it is told comes from a packet that a name server of the
configuration has sent in answer to one of them (`Grows`). The requests of `resolve_host` are those
for its names (`Lookups`): they are asked for in the order of `query_names`, until one of them has
an address.
-/

namespace UsnetSockets

open Outcome

namespace Looked

variable {α β : Type}

theorem andThen_eq {x : Looked α} {f : α → DnsClient → Looked β} {r : Outcome DnsSocketError β}
    {c' : DnsClient} (h : x.andThen f = (r, c')) :
    (∃ a c, x = (.ok a, c) ∧ f a c = (r, c')) ∨ (∃ e, x = (.err e, c') ∧ r = .err e) ∨
      (x = (.panic, c') ∧ r = .panic) ∨ (x = (.outOfFuel, c') ∧ r = .outOfFuel) := by
  obtain ⟨o, c⟩ := x
  rcases o with a | e | _ | _ <;> simp only [andThen, Prod.mk.injEq] at h
  · exact .inl ⟨a, c, rfl, h⟩
  · exact .inr (.inl ⟨e, by rw [h.2], h.1.symm⟩)
  · exact .inr (.inr (.inl ⟨by rw [h.2], h.1.symm⟩))
  · exact .inr (.inr (.inr ⟨by rw [h.2], h.1.symm⟩))

theorem andThen_of_ok {x : Looked α} {a : α} (h : x.1 = .ok a) (f : α → DnsClient → Looked β) :
    x.andThen f = f a x.2 := by
  obtain ⟨o, c⟩ := x
  obtain rfl : o = .ok a := h
  rfl

theorem andThen_of_err {x : Looked α} {e : DnsSocketError} (h : x.1 = .err e)
    (f : α → DnsClient → Looked β) : x.andThen f = (.err e, x.2) := by
  obtain ⟨o, c⟩ := x
  obtain rfl : o = .err e := h
  rfl

end Looked

/-- The message of a request. -/
def queryMessage (id : UInt16) (name : Str) (k : RecordKind) : Message where
  header := { Header.withId id with recursionDesired := true }
  question := [⟨name, .known k, .internet⟩]
  answer := []
  authority := []
  additional := []

namespace DnsExchange

variable (X : IdnaCrate)

/-- What the request returned was sent by a name server in answer to it: it is the first packet of
one of the attempts that is a response with the id of the query. -/
def Genuine (nameServers : List SocketAddr) (x : DnsExchange) : Prop :=
  ∀ msg, x.result = .ok msg → ∃ k nsAddr i p, nsAddr ∈ nameServers ∧
    DnsResolver.FirstReply X x.call (x.call.world k).receptions nsAddr msg i p

/-- The request asks for records of the type. -/
def AsksFor (name : Str) (k : RecordKind) (x : DnsExchange) : Prop :=
  ∃ id, x.call.outMsg = queryMessage id name k

end DnsExchange

namespace DnsResolver

/-- With rotation the attempts have gone to the name servers in turn. -/
def Rotates (r : DnsResolver) : Prop :=
  r.config.rotate = true → ∀ k a, r.tried[k]? = some a →
    r.config.nameServers[k % r.config.nameServers.length]? = some a

variable {r : DnsResolver}

/-- One request. -/
theorem Rotates.sendMessage {X : IdnaCrate} (h : r.Rotates) (hr : r.InTurn) (call : DnsCall) :
    (r.sendMessage X call).2.Rotates := by
  obtain ⟨servers, hrequest⟩ := exists_request_sendMessage (X := X) hr call
  intro hrotate k a hk
  rw [hrequest.config] at hrotate ⊢
  rw [hrequest.tried] at hk
  by_cases hlt : k < r.tried.length
  · rw [List.getElem?_append_left hlt] at hk
    exact h hrotate k a hk
  · have hle := Nat.le_of_not_lt hlt
    rw [List.getElem?_append_right hle] at hk
    have hserver := hrequest.server _ a hk
    rwa [DnsConfig.server, if_pos hrotate, Nat.zero_add, Nat.add_sub_cancel' hle] at hserver

/-- The reply to a request is one of a name server. -/
theorem genuine_sendMessage {X : IdnaCrate} (hr : r.InTurn) (call : DnsCall) :
    DnsExchange.Genuine X r.config.nameServers ⟨call, (r.sendMessage X call).1⟩ := by
  intro msg hmsg
  obtain ⟨servers, h⟩ := exists_request_sendMessage (X := X) hr call
  obtain ⟨k, a, -, ha, i, p, hfirst⟩ := h.reply msg hmsg
  have hserver := h.server k a ha
  rw [DnsConfig.server] at hserver
  rw [Nat.zero_add] at hfirst
  exact ⟨k, a, i, p, List.mem_of_getElem? hserver, hfirst⟩

end DnsResolver

namespace DnsClient

variable {X : IdnaCrate} {W : DnsWorld} {c c' c'' : DnsClient} {xs ys : List DnsExchange}

/-- What the thread keeps. -/
structure Sound (c : DnsClient) : Prop where
  config : c.resolver.config = c.config.toDnsConfig
  inTurn : c.resolver.InTurn
  rotates : c.resolver.Rotates

/-- The thread has made the given requests. -/
structure Grows (X : IdnaCrate) (c : DnsClient) (xs : List DnsExchange) (c' : DnsClient) :
    Prop where
  config : c'.config = c.config
  sound : c'.Sound
  exchanges : c'.exchanges = c.exchanges ++ xs
  id : c'.id = c.id + .ofNat xs.length
  ids : ∀ i x, xs[i]? = some x → x.call.outMsg.header.id = c.id + .ofNat i
  genuine : ∀ x ∈ xs, x.Genuine X c.config.nameServers

theorem sound_new (config : ResolvConf.FullConfig) (id : UInt16) : (new config id).Sound :=
  ⟨rfl, fun _ ↦ (Nat.zero_mod _).symm, fun _ k a hk ↦ absurd hk (by simp [new, DnsResolver.new])⟩

theorem Grows.refl (h : c.Sound) : Grows X c [] c :=
  ⟨rfl, h, (List.append_nil _).symm, by simp, fun i x hx ↦ absurd hx (by simp),
    fun x hx ↦ absurd hx (by simp)⟩

theorem Grows.trans (h : Grows X c xs c') (h' : Grows X c' ys c'') : Grows X c (xs ++ ys) c'' := by
  refine ⟨h'.config.trans h.config, h'.sound, ?_, ?_, ?_, ?_⟩
  · rw [h'.exchanges, h.exchanges, List.append_assoc]
  · rw [h'.id, h.id, List.length_append, UInt16.ofNat_add, UInt16.add_assoc]
  · intro i x hx
    by_cases hlt : i < xs.length
    · rw [List.getElem?_append_left hlt] at hx
      exact h.ids i x hx
    · have hle := Nat.le_of_not_lt hlt
      rw [List.getElem?_append_right hle] at hx
      rw [h'.ids _ x hx, h.id, UInt16.add_assoc, ← UInt16.ofNat_add, Nat.add_sub_cancel' hle]
  · intro x hx
    rcases List.mem_append.mp hx with hx | hx
    · exact h.genuine x hx
    · exact h.config ▸ h'.genuine x hx

/-- A new resolver makes no request. -/
theorem Grows.renew (c : DnsClient) :
    Grows X c [] { c with resolver := .new c.config.toDnsConfig } :=
  have h := sound_new c.config c.id
  ⟨rfl, ⟨rfl, h.inTurn, h.rotates⟩, (List.append_nil _).symm, by simp,
    fun i x hx ↦ absurd hx (by simp), fun x hx ↦ absurd hx (by simp)⟩

/-- The call that a request makes. -/
def callOf (W : DnsWorld) (c : DnsClient) (name : Str) (k : RecordKind) : DnsCall :=
  ⟨queryMessage c.id name k, messageLimit, W.attempts c.exchanges.length, W.fuel⟩

theorem request_def (name : Str) (k : RecordKind) (c : DnsClient) :
    c.request X W name k = ((c.resolver.sendMessage X (callOf W c name k)).1,
      { c with
        resolver := (c.resolver.sendMessage X (callOf W c name k)).2
        id := c.id + 1
        exchanges := c.exchanges ++
          [⟨callOf W c name k, (c.resolver.sendMessage X (callOf W c name k)).1⟩] }) := rfl

/-- **One request.** -/
theorem request_eq (hc : c.Sound) {name : Str} {k : RecordKind} {r : Outcome DnsSocketError Message}
    (h : c.request X W name k = (r, c')) : Grows X c [⟨callOf W c name k, r⟩] c' := by
  rw [request_def, Prod.mk.injEq] at h
  obtain ⟨rfl, rfl⟩ := h
  obtain ⟨servers, hrequest⟩ :=
    DnsResolver.exists_request_sendMessage (X := X) hc.inTurn (callOf W c name k)
  have hrotates := hc.rotates.sendMessage (X := X) hc.inTurn (callOf W c name k)
  refine ⟨rfl, ⟨hrequest.config.trans hc.config, hrequest.inTurn, hrotates⟩, rfl, rfl, ?_, ?_⟩
  · intro i x hx
    obtain ⟨rfl, rfl⟩ : i = 0 ∧ _ = x := by simpa [List.getElem?_singleton] using hx
    exact (UInt16.add_zero c.id).symm
  · intro x hx
    rw [List.mem_singleton.mp hx]
    have hgenuine := DnsResolver.genuine_sendMessage (X := X) hc.inTurn (callOf W c name k)
    rwa [hc.config] at hgenuine

theorem asksFor_callOf (name : Str) (k : RecordKind) (r : Outcome DnsSocketError Message) :
    DnsExchange.AsksFor name k ⟨callOf W c name k, r⟩ := ⟨c.id, rfl⟩

/-! ## One name -/

/-- The records that are read from the reply to the request. -/
def Gives (X : IdnaCrate) (W : DnsWorld) (name : Str) (k : RecordKind) (recs : List Record)
    (x : DnsExchange) : Prop :=
  x.AsksFor name k ∧ ∃ err, recordsOf X W k x.result = .ok (recs, err)

/-- The requests that are made for one name, and the addresses they give. With `use_inet6` the
addresses in IPv4 are asked for only if there are none in IPv6. -/
inductive LooksUp (X : IdnaCrate) (W : DnsWorld) (config : ResolvConf.FullConfig) (name : Str) :
    List DnsExchange → List IpAddr → Prop
  | v4 {x4 x6 : DnsExchange} {recs4 recs6 : List Record} (h : config.useInet6 = false)
      (h4 : Gives X W name .a recs4 x4) (h6 : Gives X W name .aaaa recs6 x6) :
      LooksUp X W config name [x4, x6] (recs4.filterMap addressOf ++ recs6.filterMap addressOf)
  | v6 {x6 : DnsExchange} {recs6 : List Record} (h : config.useInet6 = true)
      (h6 : Gives X W name .aaaa recs6 x6) (hne : recs6.filterMap addressOf ≠ []) :
      LooksUp X W config name [x6] (recs6.filterMap addressOf)
  | mapped {x6 x4 : DnsExchange} {recs6 recs4 : List Record} (h : config.useInet6 = true)
      (h6 : Gives X W name .aaaa recs6 x6) (hnil : recs6.filterMap addressOf = [])
      (h4 : Gives X W name .a recs4 x4) :
      LooksUp X W config name [x6, x4] ((recs4.filterMap addressOf).map mapped)

/-- The operation has come to its end, with a result or with an error. -/
def Finished {ε α : Type} (r : Outcome ε α) : Prop := r ≠ .panic ∧ r ≠ .outOfFuel

/-- A request for records, which is never an error. -/
theorem requestRecords_eq (hc : c.Sound) {name : Str} {k : RecordKind}
    {r : Outcome DnsSocketError (List Record × Option DnsSocketError)}
    (h : c.requestRecords X W k name = (r, c')) :
    ∃ x, Grows X c [x] c' ∧ x.AsksFor name k ∧ recordsOf X W k x.result = r := by
  rcases hreq : c.request X W name k with ⟨res, c₁⟩
  rw [requestRecords, hreq, Prod.mk.injEq] at h
  obtain ⟨rfl, rfl⟩ := h
  exact ⟨_, request_eq hc hreq, asksFor_callOf name k res, rfl⟩

theorem recordsOf_ne_err (k : RecordKind) (x : Outcome DnsSocketError Message)
    (e : DnsSocketError) : recordsOf X W k x ≠ .err e := by
  have hanswers (answers : List Resource) : readAnswers X W k answers ≠ .err e := by
    induction answers with
    | nil => simp [readAnswers]
    | cons rr answers ih =>
      rw [readAnswers]
      split
      · split
        · intro h
          rcases hrest : readAnswers X W k answers with ⟨recs, err⟩ | e' | _ | _ <;>
            rw [hrest] at h ih <;> simp at h ih
          exact ih h
        all_goals simp
      · exact ih
  rcases x with msg | e' | _ | _
  · exact hanswers msg.answer
  all_goals simp [recordsOf]

/-- A request for addresses with what follows it. `resolve_host_v4` and `resolve_host_v6` are such
requests. -/
theorem andThen_addresses (hc : c.Sound) {name : Str} {k : RecordKind} {β : Type}
    {f : List IpAddr × Option DnsSocketError → DnsClient → Looked β} {r : Outcome DnsSocketError β}
    (h : ((c.requestRecords X W k name).andThen
      fun found c ↦ (.ok (addressesOf found), c)).andThen f = (r, c')) (hr : Finished r) :
    ∃ x recs err c₁, Grows X c [x] c₁ ∧ Gives X W name k recs x ∧
      f (recs.filterMap addressOf, err) c₁ = (r, c') := by
  obtain ⟨found, c₁, h₁, h⟩ | ⟨e, h₁, rfl⟩ | ⟨-, rfl⟩ | ⟨-, rfl⟩ := Looked.andThen_eq h
  · obtain ⟨⟨recs, err⟩, c₂, hx, h₁⟩ | ⟨e, -, h₁⟩ | ⟨-, h₁⟩ | ⟨-, h₁⟩ := Looked.andThen_eq h₁
    · rw [Prod.mk.injEq, ok.injEq] at h₁
      obtain ⟨rfl, rfl⟩ := h₁
      obtain ⟨x, hgrows, hasks, hrecs⟩ := requestRecords_eq hc hx
      exact ⟨x, recs, err, c₂, hgrows, ⟨hasks, err, hrecs⟩, h⟩
    all_goals exact absurd h₁ (by simp)
  · obtain ⟨⟨recs, err⟩, c₂, -, h₁⟩ | ⟨e', hx, -⟩ | ⟨-, h₁⟩ | ⟨-, h₁⟩ := Looked.andThen_eq h₁
    · exact absurd h₁ (by simp)
    · obtain ⟨x, -, -, hrecs⟩ := requestRecords_eq hc hx
      exact absurd hrecs (recordsOf_ne_err k _ e')
    all_goals exact absurd h₁ (by simp)
  · exact absurd rfl hr.1
  · exact absurd rfl hr.2

theorem finishLookup_cases (res : List IpAddr) (err : Option DnsSocketError) :
    finishLookup res err = .ok res ∧ res ≠ [] ∨ ∃ e, finishLookup res err = .err e ∧ res = [] := by
  by_cases hres : res = []
  · rcases err with _ | e
    · exact .inr ⟨_, if_neg (by simp [hres]), hres⟩
    · exact .inr ⟨e, by simp [finishLookup, hres], hres⟩
  · rcases err with _ | e <;> exact .inl ⟨by simp [finishLookup, hres], hres⟩

/-- **The closure of `resolve_host`.** -/
theorem lookupName_eq (hc : c.Sound) {name : Str} {r : Outcome DnsSocketError (List IpAddr)}
    (h : c.lookupName X W name = (r, c')) (hr : Finished r) :
    ∃ xs addrs, Grows X c xs c' ∧ LooksUp X W c.config name xs addrs ∧
      (r = .ok addrs ∧ addrs ≠ [] ∨ ∃ e, r = .err e ∧ addrs = []) := by
  rw [lookupName] at h
  by_cases hinet6 : c.config.useInet6 = true
  · rw [if_pos hinet6] at h
    obtain ⟨x6, recs6, err6, c₁, hgrows₁, hgives6, h⟩ := andThen_addresses hc h hr
    split at h
    · next hempty =>
      have hnil : recs6.filterMap addressOf = [] := List.isEmpty_iff.mp hempty
      obtain ⟨x4, recs4, err4, c₂, hgrows₂, hgives4, h⟩ := andThen_addresses hgrows₁.sound h hr
      rw [Prod.mk.injEq] at h
      obtain ⟨rfl, rfl⟩ := h
      exact ⟨_, _, hgrows₁.trans hgrows₂, .mapped hinet6 hgives6 hnil hgives4,
        finishLookup_cases _ _⟩
    · next hempty =>
      have hne : recs6.filterMap addressOf ≠ [] := fun hnil ↦ hempty (List.isEmpty_iff.mpr hnil)
      rw [Prod.mk.injEq] at h
      obtain ⟨rfl, rfl⟩ := h
      exact ⟨_, _, hgrows₁, .v6 hinet6 hgives6 hne, finishLookup_cases _ _⟩
  · rw [if_neg hinet6] at h
    obtain ⟨x4, recs4, err4, c₁, hgrows₁, hgives4, h⟩ := andThen_addresses hc h hr
    obtain ⟨x6, recs6, err6, c₂, hgrows₂, hgives6, h⟩ := andThen_addresses hgrows₁.sound h hr
    rw [Prod.mk.injEq] at h
    obtain ⟨rfl, rfl⟩ := h
    exact ⟨_, _, hgrows₁.trans hgrows₂, .v4 (by simpa using hinet6) hgives4 hgives6,
      finishLookup_cases _ _⟩

/-! ## All names -/

/-- What was done for one name. -/
structure NameLookup where
  name : Str
  exchanges : List DnsExchange
  addrs : List IpAddr

/-- The lookups of some names, one after the other. -/
structure Lookups (X : IdnaCrate) (W : DnsWorld) (c : DnsClient) (ls : List NameLookup)
    (c' : DnsClient) : Prop where
  grows : Grows X c (ls.flatMap NameLookup.exchanges) c'
  looksUp : ∀ l ∈ ls, LooksUp X W c.config l.name l.exchanges l.addrs

/-- How the lookups of the given names end. -/
inductive Ends (names : List Str) (ls : List NameLookup) :
    Outcome DnsSocketError (List IpAddr) → Prop
  | found (init : List NameLookup) {l : NameLookup} (h : ls = init ++ [l])
      (hnames : ls.map NameLookup.name <+: names) (hinit : ∀ l ∈ init, l.addrs = [])
      (hl : l.addrs ≠ []) : Ends names ls (.ok l.addrs)
  | failed (hnames : ls.map NameLookup.name = names) (hnone : ∀ l ∈ ls, l.addrs = [])
      (e : DnsSocketError) : Ends names ls (.err e)

theorem Lookups.cons {name : Str} {addrs : List IpAddr} {ls : List NameLookup}
    (hgrows : Grows X c xs c') (hlooks : LooksUp X W c.config name xs addrs)
    (h : Lookups X W c' ls c'') : Lookups X W c (⟨name, xs, addrs⟩ :: ls) c'' := by
  refine ⟨hgrows.trans h.grows, ?_⟩
  rw [List.forall_mem_cons]
  exact ⟨hlooks, fun l hl ↦ hgrows.config ▸ h.looksUp l hl⟩

theorem Ends.cons {name : Str} {names : List Str} {ls : List NameLookup}
    {r : Outcome DnsSocketError (List IpAddr)} (h : Ends names ls r) :
    Ends (name :: names) (⟨name, xs, []⟩ :: ls) r := by
  rcases h with ⟨init, hls, hnames, hinit, hl⟩ | ⟨hnames, hnone, e⟩
  · refine .found (⟨name, xs, []⟩ :: init) (by rw [hls]; rfl) ?_ ?_ hl
    · exact List.prefix_cons_iff.mpr (.inr ⟨_, rfl, hnames⟩)
    · rw [List.forall_mem_cons]
      exact ⟨rfl, hinit⟩
  · refine .failed (by rw [List.map_cons, hnames]) ?_ e
    rw [List.forall_mem_cons]
    exact ⟨rfl, hnone⟩

/-- The result of `query_names` as the operation returns it. -/
def flattened {α : Type} : Except DnsSocketError (Outcome DnsSocketError α) →
    Outcome DnsSocketError α
  | .ok r => r
  | .error e => .err e

theorem tryName_eq {name : Str} {r : Except DnsSocketError (Outcome DnsSocketError (List IpAddr))}
    (h : tryName X W name c = (r, c')) : lookupName X W name c = (flattened r, c') ∧
      ∀ r', r = .ok r' → ∀ e, r' ≠ .err e := by
  rw [tryName] at h
  rcases hl : lookupName X W name c with ⟨o, c₁⟩
  rw [hl] at h
  rcases o with addrs | e | _ | _ <;> simp only [Prod.mk.injEq] at h <;> obtain ⟨rfl, rfl⟩ := h <;>
    exact ⟨rfl, by simp⟩

theorem lookups_of_asks {names : List Str}
    {r : Except DnsSocketError (Outcome DnsSocketError (List IpAddr)) × DnsClient}
    (h : Asks (tryName X W) names c r) (hc : c.Sound) (hr : Finished (flattened r.1)) :
    ∃ ls, Lookups X W c ls r.2 ∧ Ends names ls (flattened r.1) := by
  induction h with
  | @found name names s s' t h =>
    obtain ⟨hl, hno⟩ := tryName_eq h
    obtain ⟨xs, addrs, hgrows, hlooks, ⟨hok, hne⟩ | ⟨e, herr, -⟩⟩ := lookupName_eq hc hl hr
    · refine ⟨[⟨name, xs, addrs⟩], .cons hgrows hlooks ⟨.refl hgrows.sound, by simp⟩, ?_⟩
      have hok : t = .ok addrs := hok
      subst hok
      exact .found [] rfl (by simp) (by simp) hne
    · exact absurd herr (hno t rfl e)
  | @failed name s s' e h =>
    obtain ⟨hl, -⟩ := tryName_eq h
    obtain ⟨xs, addrs, hgrows, hlooks, ⟨hok, -⟩ | ⟨e', -, rfl⟩⟩ := lookupName_eq hc hl hr
    · exact absurd hok (by simp [flattened])
    · refine ⟨[⟨name, xs, []⟩], .cons hgrows hlooks ⟨.refl hgrows.sound, by simp⟩, ?_⟩
      refine .failed ?_ ?_ e
      · rfl
      · simp
  | @next name names s s' e r h _ ih =>
    obtain ⟨hl, -⟩ := tryName_eq h
    obtain ⟨xs, addrs, hgrows, hlooks, ⟨hok, -⟩ | ⟨e', -, rfl⟩⟩ :=
      lookupName_eq hc hl (by simp [flattened, Finished])
    · exact absurd hok (by simp [flattened])
    · obtain ⟨ls, hls, hends⟩ := ih hgrows.sound hr
      exact ⟨_, .cons hgrows hlooks hls, hends.cons⟩

theorem exists_lookups_resolveHost (hc : c.Sound) {host : Str}
    {r : Outcome IoError (List IpAddr)} (h : c.resolveHost X W host = (r, c')) (hr : Finished r) :
    ∃ ls o, Lookups X W c ls c' ∧ Ends (triedNames host c.config) ls o ∧
      r = convertError "failed to resolve host" o := by
  have hasks := asks_queryNames host c.config (tryName X W) c
  have hflat : r = convertError "failed to resolve host"
      (flattened (queryNames host c.config (tryName X W) c).1) ∧
      c' = (queryNames host c.config (tryName X W) c).2 := by
    rw [resolveHost] at h
    split at h
    · next hq =>
      rw [hq]
      exact ⟨(Prod.mk.inj h).1.symm, (Prod.mk.inj h).2.symm⟩
    · next hq =>
      rw [hq]
      exact ⟨(Prod.mk.inj h).1.symm, (Prod.mk.inj h).2.symm⟩
  obtain ⟨rfl, rfl⟩ := hflat
  have hfin : Finished (flattened (queryNames host c.config (tryName X W) c).1) := by
    constructor
    · intro hpanic
      exact hr.1 (by rw [hpanic, convertError])
    · intro hfuel
      exact hr.2 (by rw [hfuel, convertError])
  obtain ⟨ls, hls, hends⟩ := lookups_of_asks hasks hc hfin
  exact ⟨ls, _, hls, hends, rfl⟩

/-! ## Whole runs -/

/-- What a thread may do: look something up, or go on with a new resolver, as the functions
`resolve_host` and `resolve_addr` without a resolver do for each of their calls. -/
inductive Lookup where
  | renew
  | host (name : Str)
  | record (k : RecordKind) (name : Str)
  | addr (ip : IpAddr)

/-- One operation, with its result left out. -/
def perform (X : IdnaCrate) (W : DnsWorld) (c : DnsClient) :
    Lookup → Outcome IoError Unit × DnsClient
  | .renew => (.ok (), { c with resolver := .new c.config.toDnsConfig })
  | .host name => ((c.resolveHost X W name).1 >>= fun _ ↦ .ok (), (c.resolveHost X W name).2)
  | .record k name =>
    ((c.resolveRecord X W k name).1 >>= fun _ ↦ .ok (), (c.resolveRecord X W k name).2)
  | .addr ip => ((c.resolveAddr X W ip).1 >>= fun _ ↦ .ok (), (c.resolveAddr X W ip).2)

/-- An operation that returns, with a result or with an error, leaves a thread for the next one. -/
def step (X : IdnaCrate) (W : DnsWorld) (c : DnsClient) (l : Lookup) : Option DnsClient :=
  match c.perform X W l with
  | (.ok _, c') => some c'
  | (.err _, c') => some c'
  | _ => none

theorem step_eq_some {l : Lookup} (h : c.step X W l = some c') :
    Finished (c.perform X W l).1 ∧ (c.perform X W l).2 = c' := by
  rw [step] at h
  split at h
  · next heq => exact ⟨by simp [heq, Finished], by rw [heq, Option.some.inj h]⟩
  · next heq => exact ⟨by simp [heq, Finished], by rw [heq, Option.some.inj h]⟩
  · exact absurd h (by simp)

theorem finished_of_bind {ε α β : Type} {x : Outcome ε α} {f : α → Outcome ε β}
    (h : Finished (x >>= f)) : Finished x := by
  constructor
  · rintro rfl
    exact h.1 rfl
  · rintro rfl
    exact h.2 rfl

theorem grows_of_step (hc : c.Sound) {l : Lookup} (h : c.step X W l = some c') :
    ∃ xs, Grows X c xs c' := by
  obtain ⟨hfin, rfl⟩ := step_eq_some h
  rcases l with - | name | ⟨k, name⟩ | ip
  · exact ⟨[], .renew c⟩
  · obtain ⟨ls, o, hls, -, -⟩ := exists_lookups_resolveHost hc (Prod.mk.eta.symm)
      (finished_of_bind hfin)
    exact ⟨_, hls.grows⟩
  · have hgrows : ∃ x, Grows X c [x] (c.requestRecords X W k name).2 := by
      obtain ⟨x, hgrows, -, -⟩ := requestRecords_eq hc Prod.mk.eta.symm
      exact ⟨x, hgrows⟩
    obtain ⟨x, hgrows⟩ := hgrows
    have hlast : (c.resolveRecord X W k name).2 = (c.requestRecords X W k name).2 := by
      rw [resolveRecord]
      rcases c.requestRecords X W k name with ⟨⟨recs, _ | e⟩ | e | _ | _, c₁⟩ <;> rfl
    rw [show (c.perform X W (.record k name)).2 = _ from hlast]
    exact ⟨_, hgrows⟩
  · have hgrows := request_eq hc
      (show c.request X W (addressName ip) .ptr = _ from Prod.mk.eta.symm)
    have hlast : (c.resolveAddr X W ip).2 = (c.request X W (addressName ip) .ptr).2 := by
      rw [resolveAddr]
      rcases c.request X W (addressName ip) .ptr with ⟨msg | e | _ | _, c₁⟩ <;> rfl
    rw [show (c.perform X W (.addr ip)).2 = _ from hlast]
    exact ⟨_, hgrows⟩


theorem grows_of_run {config : ResolvConf.FullConfig} {id : UInt16} {ls : List Lookup}
    (hrun : Transition.run (step X W) (new config id) ls = some c) :
    Grows X (new config id) c.exchanges c := by
  have hgrows : ∃ xs, Grows X (new config id) xs c := by
    refine Transition.invariant_of_run (I := fun c ↦ ∃ xs, Grows X (new config id) xs c) ?_
      ⟨[], .refl (sound_new config id)⟩ hrun
    rintro c l c' ⟨xs, hxs⟩ hstep
    obtain ⟨ys, hys⟩ := grows_of_step hxs.sound hstep
    exact ⟨_, hxs.trans hys⟩
  obtain ⟨xs, hxs⟩ := hgrows
  rwa [hxs.exchanges, show (new config id).exchanges = [] from rfl, List.nil_append]

end DnsClient

end UsnetSockets
