import UsnetSockets.Resolve.ResolvConf

/-!
# Search domains

`query_names` of `resolver.rs` looks up a host name, possibly with the search domains of the
configuration behind it. The documentation of `n_dots` says which names come first: it is the
minimum number of dots in a name to trigger an initial absolute query. So a short name is to be
completed by the search domains before it is tried as it is, and a name with enough dots is not.

The test in `query_names` is the other way round: it is the names with enough dots that are
completed by the search domains, and the short ones are tried only as they are.

A lookup is an arbitrary function that carries a state along, as the closure of the source may.
-/

namespace UsnetSockets

variable {σ T : Type}

/-! ## Looking up a host name -/

/-- The names with each suffix behind the host, and the host at the end. -/
def withSuffixes (host : Str) (suffixes : List Str) : List Str :=
  suffixes.map (fun s ↦ host ++ '.' :: s) ++ [host]

/-- The loop of `query_names`, with the last error so far. -/
def queryLoop (f : Str → σ → Except DnsSocketError T × σ) :
    List Str → Option DnsSocketError → σ → Except DnsSocketError T × σ
  | [], some e, s => (.error e, s)
  | [], none, s => (.error (.ioError (.other "failed to resolve host: name not found")), s)
  | name :: names, _, s =>
    match f name s with
    | (.ok t, s) => (.ok t, s)
    | (.error e, s) => queryLoop f names (some e) s

/-- Whether the search domains are used. The number of dots is cast to `u32`. -/
def useSearch (name : Str) (config : ResolvConf.FullConfig) : Bool :=
  !(name.getLast? == some '.') && decide (config.nDots ≤ name.count '.' % 2 ^ 32)

def queryNames (name : Str) (config : ResolvConf.FullConfig)
    (f : Str → σ → Except DnsSocketError T × σ) (s : σ) : Except DnsSocketError T × σ :=
  if useSearch name config then queryLoop f (withSuffixes name config.search) none s
  else f name s

/-! ## What is documented -/

/-- The lookups of the names, one after the other. The first that succeeds gives the result; when
all of them fail, the last one gives the error. -/
inductive Asks (f : Str → σ → Except DnsSocketError T × σ) :
    List Str → σ → Except DnsSocketError T × σ → Prop
  | found {name : Str} {names : List Str} {s s' : σ} {t : T} (h : f name s = (.ok t, s')) :
      Asks f (name :: names) s (.ok t, s')
  | failed {name : Str} {s s' : σ} {e : DnsSocketError} (h : f name s = (.error e, s')) :
      Asks f [name] s (.error e, s')
  | next {name : Str} {names : List Str} {s s' : σ} {e : DnsSocketError}
      {r : Except DnsSocketError T × σ} (h : f name s = (.error e, s'))
      (hrest : Asks f names s' r) : Asks f (name :: names) s r

/-- The order of the names that the documentation of `n_dots` asks for. -/
def DocumentedOrder (name : Str) (config : ResolvConf.FullConfig) (names : List Str) : Prop :=
  if name.getLast? = some '.' ∨ config.nDots ≤ name.count '.' then names.head? = some name
  else names = config.search.map (fun suffix ↦ name ++ ['.'] ++ suffix) ++ [name]

/-- Whatever the lookups are, the names are tried in the documented order. -/
def SearchesInOrder (name : Str) (config : ResolvConf.FullConfig) : Prop :=
  ∃ names, DocumentedOrder name config names ∧
    ∀ (σ T : Type) (f : Str → σ → Except DnsSocketError T × σ) (s : σ),
      Asks f names s (queryNames name config f s)

/-! ## What is done -/

/-- The names that `query_names` tries. -/
def triedNames (name : Str) (config : ResolvConf.FullConfig) : List Str :=
  if useSearch name config then withSuffixes name config.search else [name]

theorem asks_queryLoop (f : Str → σ → Except DnsSocketError T × σ) {names : List Str}
    (hne : names ≠ []) (err : Option DnsSocketError) (s : σ) :
    Asks f names s (queryLoop f names err s) := by
  induction names generalizing err s with
  | nil => exact absurd rfl hne
  | cons name names ih =>
    rw [queryLoop]
    rcases hf : f name s with ⟨t | e, s'⟩
    · by_cases hnames : names = []
      · subst hnames
        exact .failed hf
      · exact .next hf (ih hnames _ s')
    · exact .found hf

/-- The names that are tried are asked for one after the other. -/
theorem asks_queryNames (name : Str) (config : ResolvConf.FullConfig)
    (f : Str → σ → Except DnsSocketError T × σ) (s : σ) :
    Asks f (triedNames name config) s (queryNames name config f s) := by
  rw [queryNames, triedNames]
  by_cases huse : useSearch name config = true
  · rw [if_pos huse, if_pos huse]
    exact asks_queryLoop f (by simp [withSuffixes]) none s
  · rw [if_neg huse, if_neg huse]
    rcases hf : f name s with ⟨e | t, s'⟩
    · exact .failed hf
    · exact .found hf

/-- A lookup that finds nothing and writes down what it was asked for. -/
def logLookup (name : Str) (log : List Str) : Except DnsSocketError Unit × List Str :=
  (.error (.ioError (.other "not found")), log ++ [name])

theorem Asks.log_eq {names log : List Str} {r : Except DnsSocketError Unit × List Str}
    (h : Asks logLookup names log r) : r.2 = log ++ names := by
  induction h with
  | found h => exact absurd h (by simp [logLookup])
  | failed h =>
    rw [logLookup, Prod.mk.injEq] at h
    exact h.2.symm
  | next h _ ih =>
    rw [logLookup, Prod.mk.injEq] at h
    rw [ih, ← h.2, List.append_assoc, List.singleton_append]

/-- The names that are tried are the only candidates. -/
theorem searchesInOrder_iff_triedNames (name : Str) (config : ResolvConf.FullConfig) :
    SearchesInOrder name config ↔ DocumentedOrder name config (triedNames name config) := by
  constructor
  · rintro ⟨names, horder, hasks⟩
    have hlog := (hasks _ _ logLookup []).log_eq
    rw [(asks_queryNames name config logLookup []).log_eq] at hlog
    rwa [List.append_cancel_left hlog]
  · intro horder
    exact ⟨_, horder, fun σ T f s ↦ asks_queryNames name config f s⟩

theorem useSearch_eq_true_iff {name : Str} {config : ResolvConf.FullConfig} :
    useSearch name config = true ↔
      name.getLast? ≠ some '.' ∧ config.nDots ≤ name.count '.' % 2 ^ 32 := by
  simp [useSearch]

theorem head?_withSuffixes_eq_iff {host : Str} {suffixes : List Str} :
    (withSuffixes host suffixes).head? = some host ↔ suffixes = [] := by
  rcases suffixes with _ | ⟨suffix, suffixes⟩
  · simp [withSuffixes]
  · simp [withSuffixes]

/-- **When the search domains are used as documented.** The names are tried in the documented order
if and only if the name ends with a dot, there are no search domains, or the name has so many dots
that their number, which is large enough, falls below `n_dots` when it is cast. -/
theorem searchesInOrder_iff (name : Str) (config : ResolvConf.FullConfig) :
    SearchesInOrder name config ↔
      name.getLast? = some '.' ∨ config.search = [] ∨
        (config.nDots ≤ name.count '.' ∧ name.count '.' % 2 ^ 32 < config.nDots) := by
  rw [searchesInOrder_iff_triedNames, DocumentedOrder, triedNames]
  by_cases hlast : name.getLast? = some '.'
  · have huse : ¬useSearch name config = true := by
      rw [useSearch_eq_true_iff]
      exact fun h ↦ h.1 hlast
    rw [if_pos (Or.inl hlast), if_neg huse]
    simp [hlast]
  by_cases hdots : config.nDots ≤ name.count '.'
  · rw [if_pos (Or.inr hdots)]
    by_cases hcast : config.nDots ≤ name.count '.' % 2 ^ 32
    · rw [if_pos (useSearch_eq_true_iff.mpr ⟨hlast, hcast⟩), head?_withSuffixes_eq_iff]
      simp only [hlast, false_or]
      exact ⟨Or.inl, fun h ↦ h.resolve_right fun h ↦ absurd h.2 (by omega)⟩
    · rw [if_neg fun h ↦ hcast (useSearch_eq_true_iff.mp h).2]
      simp only [List.head?_cons, true_iff]
      exact Or.inr (Or.inr ⟨hdots, by omega⟩)
  · -- too few dots: only the name itself is tried
    have hmod := Nat.mod_le (name.count '.') (2 ^ 32)
    have huse : ¬useSearch name config = true := by
      intro h
      have := (useSearch_eq_true_iff.mp h).2
      omega
    have hor : ¬(name.getLast? = some '.' ∨ config.nDots ≤ name.count '.') := by
      rintro (h | h)
      · exact hlast h
      · exact hdots h
    rw [if_neg hor, if_neg huse]
    simp only [hlast, hdots, false_or, false_and, or_false]
    constructor
    · intro h
      have hlen := congrArg List.length h
      simp only [List.length_append, List.length_map, List.length_singleton] at hlen
      exact List.length_eq_zero_iff.mp (by omega)
    · intro h
      simp [h]

/-- The host `pc` is not looked up in the domain `lan`, although one dot is required for an absolute
query. -/
theorem not_searchesInOrder :
    ¬∀ (name : Str) (config : ResolvConf.FullConfig), SearchesInOrder name config := by
  intro h
  have horder := (searchesInOrder_iff_triedNames "pc".toList
    { ResolvConf.defaultConfig with search := ["lan".toList] }).mp (h _ _)
  have htried : triedNames "pc".toList
      { ResolvConf.defaultConfig with search := ["lan".toList] } = ["pc".toList] := by decide
  rw [htried, DocumentedOrder, if_neg (by decide)] at horder
  exact absurd horder (by decide)

end UsnetSockets
