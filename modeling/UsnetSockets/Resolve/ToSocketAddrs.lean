import UsnetSockets.Resolve.Hosts
import UsnetSockets.Resolve.Replies

/-!
# Addresses from text

`usnet_to_socket_addrs` for texts, and `usnet_resolve_socket_addr` below it. The name of a host is
looked for in three places: it may be the name of this machine, it may be in the hosts file, and
otherwise two public name servers are asked.

What counts as the text of an address is up to the standard library; `AddrParsers` has its parsers.
-/

namespace UsnetSockets

open Outcome

/-- `parse` of the standard library for the types of addresses. -/
structure AddrParsers where
  socketAddr : Str → Option SocketAddr
  ipv4 : Str → Option IpAddr
  ipv6 : Str → Option IpAddr

/-- `parse` for an address of either kind. -/
def AddrParsers.ip (P : AddrParsers) (s : Str) : Option IpAddr := (P.ipv4 s).or (P.ipv6 s)

/-- What the calls find on the machine. -/
structure Machine where
  /-- The result of `get_hostname` -/
  hostname : Except IoError Str
  /-- The text of the hosts file, if it can be read -/
  hostsFile : Option Str
  /-- The result of `DnsSocket::bind` -/
  bound : Except IoError Unit
  /-- The next value of `generate_id` -/
  id : UInt16

/-- A result, with the requests that were made for it. -/
abbrev Resolved := Outcome IoError (List SocketAddr) × List DnsExchange

/-- `DnsConfig::with_name_servers`. -/
def withNameServers (nameServers : List SocketAddr) : ResolvConf.FullConfig where
  nameServers := nameServers
  search := []
  nDots := 1
  timeout := ResolvConf.fromSecs 5
  attempts := 5
  rotate := false
  useInet6 := false

/-- The configuration of `usnet_resolve_socket_addr`. -/
def publicConfig : ResolvConf.FullConfig := withNameServers [⟨.v4 1 1 1 1, 53⟩, ⟨.v4 1 0 0 1, 53⟩]

variable (X : IdnaCrate) (W : DnsWorld) (P : AddrParsers) (M : Machine)

/-- What the hosts file says about the name. A file that cannot be read or parsed says nothing. -/
def hostsAddress (s : Str) : Option IpAddr :=
  match M.hostsFile.map (parseHostTable P.ip) with
  | some (.ok etcHosts) => etcHosts.findAddress s
  | _ => none

/-- The third place: the public name servers. -/
def askNameServers (s : Str) (p : UInt16) : Resolved :=
  match M.bound with
  | .error e => (.err e, [])
  | .ok () =>
    let found := (DnsClient.new publicConfig M.id).resolveHost X W s
    (found.1 >>= fun ips ↦ .ok (ips.map fun a ↦ ⟨a, p⟩), found.2.exchanges)

/-- `usnet_resolve_socket_addr`. -/
def resolveSocketAddr (s : Str) (p : UInt16) : Resolved :=
  if M.hostname.toOption = some s then (.ok [⟨.v4 127 0 0 1, p⟩], [])
  else
    match hostsAddress P M s with
    | some addr => (.ok [⟨addr, p⟩], [])
    | none => askNameServers X W M s p

/-- `usnet_to_socket_addrs` for the text of a host and a port. -/
def hostPortToSocketAddrs (host : Str) (port : UInt16) : Resolved :=
  match P.ipv4 host with
  | some addr => (.ok [⟨addr, port⟩], [])
  | none =>
    match P.ipv6 host with
    | some addr => (.ok [⟨addr, port⟩], [])
    | none => resolveSocketAddr X W P M host port

/-- The parts that `rsplitn(2, sep)` gives, the one in front first. -/
def rsplitAtChar (sep : Char) (s : Str) : Option (Str × Str) :=
  (splitAtChar sep s.reverse).map fun x ↦ (x.2.reverse, x.1.reverse)

/-- `usnet_to_socket_addrs` for a text. -/
def strToSocketAddrs (s : Str) : Resolved :=
  match P.socketAddr s with
  | some addr => (.ok [addr], [])
  | none =>
    match rsplitAtChar ':' s with
    | none => (.err (.invalidInput "invalid socket address"), [])
    | some (host, portStr) =>
      match parseUint 16 portStr with
      | none => (.err (.invalidInput "invalid port value"), [])
      | some port => resolveSocketAddr X W P M host (.ofNat port)

/-! ## Ports -/

theorem le_ofDigitChars (cs : Str) (n : ℕ) : n ≤ Nat.ofDigitChars 10 cs n := by
  induction cs generalizing n with
  | nil => simp
  | cons c cs ih =>
    rw [Nat.ofDigitChars_cons]
    refine le_trans ?_ (ih _)
    omega

/-- The value of the digits. -/
theorem parseDigits_eq {bits : ℕ} {cs : Str} (hne : cs ≠ []) (hdigits : ∀ c ∈ cs, c.isDigit = true)
    (hlt : Nat.ofDigitChars 10 cs 0 < 2 ^ bits) :
    parseDigits bits cs = some (Nat.ofDigitChars 10 cs 0) := by
  rw [parseDigits, if_neg (by simpa using hne)]
  clear hne
  generalize 0 = n at hlt ⊢
  induction cs generalizing n with
  | nil => simp
  | cons c cs ih =>
    rw [List.forall_mem_cons] at hdigits
    rw [Nat.ofDigitChars_cons, Nat.mul_comm] at hlt ⊢
    have hstep := (le_ofDigitChars cs (n * 10 + (c.toNat - '0'.toNat))).trans_lt hlt
    rw [List.foldlM_cons, if_pos hdigits.1, if_pos hstep]
    exact ih hdigits.2 _ hlt

/-- A port as `{}` writes it. -/
def portText (port : UInt16) : Str := Nat.toDigits 10 port.toNat

theorem isDigit_of_mem_portText {port : UInt16} {c : Char} (hc : c ∈ portText port) :
    c.isDigit = true := Nat.isDigit_of_mem_toDigits (by decide) (by decide) hc

/-- The text of a port is read back. -/
theorem parseUint_portText (port : UInt16) : parseUint 16 (portText port) = some port.toNat := by
  have hvalue : Nat.ofDigitChars 10 (portText port) 0 = port.toNat :=
    Nat.ofDigitChars_ten_toDigits
  have hdigits : parseDigits 16 (portText port) = some port.toNat := by
    rw [← hvalue]
    exact parseDigits_eq Nat.toDigits_ne_nil (fun c ↦ isDigit_of_mem_portText)
      (hvalue ▸ port.toNat_lt)
  rw [parseUint]
  · exact hdigits
  · intro digits hplus
    have hmem : '+' ∈ portText port := by
      rw [hplus]
      exact List.mem_cons_self
    exact absurd (isDigit_of_mem_portText hmem) (by decide)

theorem rsplitAtChar_append {sep : Char} {a b : Str} (h : sep ∉ b) :
    rsplitAtChar sep (a ++ sep :: b) = some (a, b) := by
  have hne : ∀ c ∈ b.reverse, (c != sep) = true := by
    intro c hc
    exact bne_iff_ne.mpr fun heq ↦ h (heq ▸ List.mem_reverse.mp hc)
  rw [rsplitAtChar, splitAtChar, List.span_eq_takeWhile_dropWhile]
  simp [List.takeWhile_append_of_pos hne, List.dropWhile_append_of_pos hne]

/-! ## The two ways to give a host and a port -/

variable {X W P M}

/-- **A host and a port in one text.** The text is read as the host and the port in two values,
except that the text of an IPv6 address is looked up as the name of a host. The hypothesis is what
the standard library accepts without brackets. -/
theorem strToSocketAddrs_hostPort
    (hstd : ∀ host port, '[' ∉ host →
      P.socketAddr (host ++ ':' :: portText port) = (P.ipv4 host).map fun a ↦ ⟨a, port⟩)
    {host : Str} (hhost : '[' ∉ host) (port : UInt16) :
    strToSocketAddrs X W P M (host ++ ':' :: portText port) =
      if P.ipv4 host = none ∧ P.ipv6 host ≠ none then resolveSocketAddr X W P M host port
      else hostPortToSocketAddrs X W P M host port := by
  have hcolon : ':' ∉ portText port := fun hmem ↦
    absurd (isDigit_of_mem_portText hmem) (by decide)
  rw [strToSocketAddrs, hstd host port hhost, hostPortToSocketAddrs]
  rcases P.ipv4 host with _ | a
  · rcases P.ipv6 host with _ | b <;> simp [rsplitAtChar_append hcolon, parseUint_portText]
  · simp

/-- Parsers that know dotted addresses only. -/
def dottedParsers : AddrParsers where
  socketAddr s := (rsplitAtChar ':' s).bind fun x ↦
    (ResolvConf.parseDotted x.1).bind fun a ↦ (parseUint 16 x.2).map fun n ↦ ⟨a, .ofNat n⟩
  ipv4 := ResolvConf.parseDotted
  ipv6 _ := none

/-- A machine without a hosts file. -/
def bareMachine : Machine := ⟨.ok "box".toList, none, .ok (), 7⟩

theorem strToSocketAddrs_hostPort_box :
    strToSocketAddrs ⟨some, some⟩ (DnsClient.answering DnsClient.hostReplies) dottedParsers
      bareMachine "box:80".toList = (.ok [⟨.v4 127 0 0 1, 80⟩], []) := by
  have hstd (host : Str) (port : UInt16) : '[' ∉ host →
      dottedParsers.socketAddr (host ++ ':' :: portText port) =
        (dottedParsers.ipv4 host).map fun a ↦ ⟨a, port⟩ := by
    intro _
    have hcolon : ':' ∉ portText port := fun hmem ↦
      absurd (isDigit_of_mem_portText hmem) (by decide)
    simp only [dottedParsers, rsplitAtChar_append hcolon, Option.bind_some, parseUint_portText]
    rcases ResolvConf.parseDotted host with _ | a <;> simp
  exact (strToSocketAddrs_hostPort hstd (show '[' ∉ "box".toList by decide) 80).trans rfl

/-! ## The three places -/

/-- One of the names of the host. -/
def Host.HasName (h : Host) (name : Str) : Prop := h.name = name ∨ name ∈ h.aliases

/-- The first host that satisfies the condition. -/
def FirstHost (p : Host → Prop) (hosts : List Host) (h : Host) : Prop :=
  ∃ pre post, hosts = pre ++ h :: post ∧ p h ∧ ∀ g ∈ pre, ¬p g

theorem findHostByName_eq_some_iff {t : HostTable} {name : Str} {h : Host} :
    t.findHostByName name = some h ↔ FirstHost (Host.HasName · name) t.hosts h := by
  rw [HostTable.findHostByName, List.find?_eq_some_iff_append, FirstHost]
  have hhas (g : Host) : (g.name == name || g.aliases.any (· == name)) = true ↔ g.HasName name := by
    simp [Host.HasName]
  have hnot (g : Host) : (!(g.name == name || g.aliases.any (· == name))) = true ↔
      ¬g.HasName name := by
    rw [← hhas g, Bool.not_eq_true', Bool.not_eq_true]
  constructor
  · rintro ⟨hh, pre, post, hsplit, hpre⟩
    exact ⟨pre, post, hsplit, (hhas h).mp hh, fun g hg ↦ (hnot g).mp (hpre g hg)⟩
  · rintro ⟨pre, post, hsplit, hh, hpre⟩
    exact ⟨(hhas h).mpr hh, pre, post, hsplit, fun g hg ↦ (hnot g).mpr (hpre g hg)⟩

theorem findHostByName_eq_none {t : HostTable} {name : Str} (h : ∀ g ∈ t.hosts, ¬g.HasName name) :
    t.findHostByName name = none := by
  rcases hfind : t.findHostByName name with _ | g
  · rfl
  · obtain ⟨pre, post, hsplit, hg, -⟩ := findHostByName_eq_some_iff.mp hfind
    have hmem : g ∈ t.hosts := by
      rw [hsplit]
      exact List.mem_append_right pre List.mem_cons_self
    exact absurd hg (h g hmem)

/-- The hosts that the machine knows. A file with a line that is not accepted says nothing, also
not in its other lines. -/
inductive KnownHosts (P : AddrParsers) (M : Machine) : List Host → Prop
  | read {f : HostFile} {hs : List (Option Host)} (hf : f.Proper)
      (hfile : M.hostsFile = some f.text) (hnames : List.Forall₂ (Names P.ip) f.words hs) :
      KnownHosts P M (hs.filterMap id)
  | faulty {f : HostFile} {pre post : List (List Str)} {words : List Str} {e : InvalidData}
      (hf : f.Proper) (hfile : M.hostsFile = some f.text) (hsplit : f.words = pre ++ words :: post)
      (hpre : ∀ ws ∈ pre, ∃ host, Names P.ip ws host) (hfault : Fault P.ip words e) :
      KnownHosts P M []
  | missing (hfile : M.hostsFile = none) : KnownHosts P M []

theorem KnownHosts.hostsAddress_eq {hosts : List Host} (h : KnownHosts P M hosts) (s : Str) :
    hostsAddress P M s = (⟨hosts⟩ : HostTable).findAddress s := by
  rw [hostsAddress]
  rcases h with @⟨f, hs, hf, hfile, hnames⟩ | ⟨hf, hfile, hsplit, hpre, hfault⟩ | hfile
  · have htable := (HostFile.parseHostTable_text_eq_ok_iff hf).mpr ⟨hs, hnames, rfl⟩
    rw [hfile, Option.map_some, htable]
  · have herror := (HostFile.parseHostTable_text_eq_error_iff hf).mpr
      ⟨_, _, _, hsplit, hpre, hfault⟩
    rw [hfile, Option.map_some, herror]
    rfl
  · rw [hfile]
    rfl

theorem resolveSocketAddr_of_ne {s : Str} (h : M.hostname ≠ .ok s) (p : UInt16) :
    resolveSocketAddr X W P M s p =
      match hostsAddress P M s with
      | some addr => (.ok [⟨addr, p⟩], [])
      | none => askNameServers X W M s p := by
  rw [resolveSocketAddr, if_neg]
  intro hname
  rcases hM : M.hostname with e | name
  · rw [hM] at hname
    exact absurd hname (by simp [Except.toOption])
  · rw [hM] at hname h
    obtain rfl : name = s := by simpa [Except.toOption] using hname
    exact h rfl

/-- There are no search domains. -/
theorem triedNames_publicConfig (s : Str) : triedNames s publicConfig = [s] := by
  rw [triedNames]
  rcases useSearch s publicConfig with _ | _ <;> rfl

/-- The name servers answer for the name. -/
theorem exists_askNameServers (hbound : M.bound = .ok ()) {s : Str} {addrs : List IpAddr}
    {t' : DnsClient.Turn} (h : DnsClient.NamesReplied X W publicConfig ⟨0, M.id, 0⟩ [s] addrs t')
    (p : UInt16) :
    ∃ N, ∀ n ≥ N, (askNameServers X { W with fuel := n } M s p).1 =
      .ok (addrs.map fun a ↦ ⟨a, p⟩) := by
  rw [← triedNames_publicConfig s] at h
  obtain ⟨N, hN⟩ := DnsClient.exists_resolveHost h
  refine ⟨N, fun n hn ↦ ?_⟩
  obtain ⟨c', -, hres⟩ := hN n hn (.new publicConfig M.id) ⟨rfl, DnsClient.sound_new _ _, rfl⟩
  rw [askNameServers, hbound]
  simp only [hres]
  rfl

/-- **Where a host is looked for.** The name of the machine is its own address. Any other name has
the address of the first host of the hosts file that has it, among its names or its aliases, and no
request is made. Only when there is none, the name servers are asked, for the name as it is; the
addresses are those of their replies. -/
theorem resolveSocketAddr_places {hosts : List Host} (hknown : KnownHosts P M hosts) (s : Str)
    (p : UInt16) :
    (M.hostname = .ok s → resolveSocketAddr X W P M s p = (.ok [⟨.v4 127 0 0 1, p⟩], [])) ∧
    (M.hostname ≠ .ok s → ∀ h, FirstHost (Host.HasName · s) hosts h →
      resolveSocketAddr X W P M s p = (.ok [⟨h.address, p⟩], [])) ∧
    (M.hostname ≠ .ok s → (∀ h ∈ hosts, ¬h.HasName s) → M.bound = .ok () → ∀ addrs t',
      DnsClient.NamesReplied X W publicConfig ⟨0, M.id, 0⟩ [s] addrs t' →
      ∃ N, ∀ n ≥ N, (resolveSocketAddr X { W with fuel := n } P M s p).1 =
        .ok (addrs.map fun a ↦ ⟨a, p⟩)) := by
  refine ⟨fun hname ↦ ?_, fun hname h hfirst ↦ ?_, fun hname hnone hbound addrs t' hreplied ↦ ?_⟩
  · rw [resolveSocketAddr, if_pos (by rw [hname]; rfl)]
  · rw [resolveSocketAddr_of_ne hname, hknown.hostsAddress_eq, HostTable.findAddress,
      findHostByName_eq_some_iff.mpr hfirst]
    rfl
  · obtain ⟨N, hN⟩ := exists_askNameServers hbound hreplied p
    refine ⟨N, fun n hn ↦ ?_⟩
    rw [resolveSocketAddr_of_ne hname, hknown.hostsAddress_eq, HostTable.findAddress,
      findHostByName_eq_none hnone]
    exact hN n hn

/-! The hosts file of the machine knows `foo` and `bar`, and the first name server `a.b`. -/

def publicReply (n : ℕ) : Packet :=
  { DnsClient.hostReplies n with sender := ⟨.v4 1 1 1 1, 53⟩ }

def publicWorld : DnsWorld where
  attempts n _ := ⟨fun _ _ ↦ .ok (), fun _ ↦ ⟨.ok (), .ok (publicReply n), 1⟩⟩
  fuel := 0

def hostsMachine : Machine := { bareMachine with hostsFile := some HostFile.exampleFile.text }

theorem answeredAfter_publicWorld (before n : ℕ) (query : Message) :
    DnsResolver.AnsweredAfter X publicConfig.toDnsConfig before
      ⟨query, messageLimit, publicWorld.attempts n, 0⟩ 0 (publicReply n) := by
  refine ⟨by decide, fun j hj ↦ absurd hj (Nat.not_lt_zero j), ⟨.v4 1 1 1 1, 53⟩, rfl,
    fun _ _ ↦ rfl, ?_, 0, ⟨fun j hj ↦ absurd hj (Nat.not_lt_zero j), ?_, rfl⟩, rfl⟩
  · exact ⟨rfl, .inl rfl⟩
  · exact show 0 < publicConfig.timeout by decide

theorem replied_publicWorld_a : DnsClient.Replied ⟨some, some⟩ publicWorld
    publicConfig.toDnsConfig ⟨0, 7, 0⟩ "a.b".toList .a 0 .noError [.a [192, 0, 2, 7]] where
  plain := ⟨by decide, by decide⟩
  acceptable := DnsClient.acceptableName_a_b
  reply := ⟨_, _, answeredAfter_publicWorld 0 0 _, DnsClient.replyTo_hostReplies_a rfl⟩

theorem replied_publicWorld_aaaa : DnsClient.Replied ⟨some, some⟩ publicWorld
    publicConfig.toDnsConfig ⟨1, 8, 1⟩ "a.b".toList .aaaa 0 .nameError [] where
  plain := ⟨by decide, by decide⟩
  acceptable := DnsClient.acceptableName_a_b
  reply := ⟨_, _, answeredAfter_publicWorld 1 1 _, DnsClient.replyTo_hostReplies_aaaa rfl⟩

theorem namesReplied_publicWorld : DnsClient.NamesReplied ⟨some, some⟩ publicWorld publicConfig
    ⟨0, 7, 0⟩ ["a.b".toList] [.v4 192 0 2 7] ⟨2, 9, 2⟩ :=
  .found (.v4 rfl replied_publicWorld_a replied_publicWorld_aaaa) (List.cons_ne_nil _ _)

theorem knownHosts_hostsMachine : KnownHosts dottedParsers hostsMachine
    [⟨.v4 10 0 0 1, "foo".toList, ["bar".toList]⟩] :=
  .read HostFile.proper_exampleFile rfl (.cons .none (.cons (.host rfl) .nil))

theorem resolveSocketAddr_places_bar :
    resolveSocketAddr ⟨some, some⟩ publicWorld dottedParsers hostsMachine "bar".toList 80 =
      (.ok [⟨.v4 10 0 0 1, 80⟩], []) ∧
    ∃ N, ∀ n ≥ N, (resolveSocketAddr ⟨some, some⟩ { publicWorld with fuel := n } dottedParsers
      hostsMachine "a.b".toList 80).1 = .ok [⟨.v4 192 0 2 7, 80⟩] := by
  refine ⟨?_, ?_⟩
  · refine (resolveSocketAddr_places knownHosts_hostsMachine _ 80).2.1 ?_ _ ⟨[], [], rfl, ?_, ?_⟩
    · decide
    · exact .inr List.mem_cons_self
    · simp
  · refine (resolveSocketAddr_places knownHosts_hostsMachine _ 80).2.2 ?_ ?_ rfl _ _
      namesReplied_publicWorld
    · decide
    · intro h hh
      obtain rfl := List.mem_singleton.mp hh
      rintro (hname | hname)
      · exact absurd hname (by decide)
      · exact absurd hname (by decide)

end UsnetSockets
