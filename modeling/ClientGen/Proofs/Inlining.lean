import ClientGen.Proofs.Termination

/-!
# One inlining of the items, step by step

The inlining of item references, and the search for what a reference leads to, are
functions with a bound on the number of their steps. Here both are described without
one: `Components.Leads` follows a chain of references until it ends, and
`Components.Inlines` goes down the items of nested arrays and on into the containers
that it puts in place, until there is nothing to go on with. A description of this
kind has a derivation only where the search comes to an end.

Both do (`Components.leads_schemaAt`, `Components.exists_inlines`), whatever circles
the references form, because each remembers what it has followed and only names of
the table lead further. The bounds are never reached, so the functions compute what
the descriptions say (`Components.inlines_expandItems?`).
-/

namespace ClientGen

open Schema

namespace Components

variable {c : Components} {origin : String}

/-! ## Chains of references

The search for the end of a chain remembers what it has followed and gives up where
something comes back. All that it follows are names of the table; so with a step for every
name it cannot run out of steps before something comes back. -/

/-- **Where a chain of references leads**, without a bound on its length. `followed`
are the references of the chain so far; the chain is circular once it comes back to
one of them. -/
inductive Leads (c : Components) (origin : String) :
    List String → String → Except ReferenceError Schema → Prop
  | circular {followed : List String} {path : String} (h : path ∈ followed) :
      Leads c origin followed path (.error (.circular origin))
  | unnamed {followed : List String} {path : String} {e : ReferenceError}
      (hnew : path ∉ followed) (hname : Reference.nameIn .schemas path = .error e) :
      Leads c origin followed path (.error e)
  | missing {followed : List String} {path name : String} (hnew : path ∉ followed)
      (hname : Reference.nameIn .schemas path = .ok name) (h : c.schemas.find? name = none) :
      Leads c origin followed path (.error (.notFound origin))
  | found {followed : List String} {path name : String} {t : Schema} (hnew : path ∉ followed)
      (hname : Reference.nameIn .schemas path = .ok name)
      (h : c.schemas.find? name = some (.inline t)) : Leads c origin followed path (.ok t)
  | next {followed : List String} {path name next : String}
      {r : Except ReferenceError Schema} (hnew : path ∉ followed)
      (hname : Reference.nameIn .schemas path = .ok name)
      (h : c.schemas.find? name = some (.ref next))
      (hrest : Leads c origin (path :: followed) next r) : Leads c origin followed path r

/-- A reference names an entry of the table. -/
def Names (c : Components) (path : String) : Prop :=
  ∃ name ∈ c.schemas.keys, path = Reference.toSchema name

/-- A reference that leads to an entry names it. -/
theorem names_of_find? {path name : String} {part : RefOr Schema}
    (hname : Reference.nameIn .schemas path = .ok name)
    (h : c.schemas.find? name = some part) : c.Names path := by
  refine ⟨name, ?_, Reference.eq_toSchema_of_nameIn hname⟩
  exact List.mem_map_of_mem (OrderedMap.find?_eq_some_iff.mp h)

/-- **Only so many references can be followed**: as many as there are names. -/
theorem length_le_size {paths : List String} (hnodup : paths.Nodup)
    (h : ∀ path ∈ paths, c.Names path) : paths.length ≤ c.schemas.size := by
  have hsub : paths ⊆ c.schemas.keys.map Reference.toSchema := by
    intro path hpath
    obtain ⟨name, hname, rfl⟩ := h path hpath
    exact List.mem_map_of_mem hname
  have hlen := (List.subperm_of_subset hnodup hsub).length_le
  simpa [OrderedMap.keys, OrderedMap.size, Entries.keys] using hlen

/-- **A chain leads where every long enough search for it ends.** By induction on the chain,
which takes one step more with each reference. -/
theorem Leads.exists_chase_eq {followed : List String} {path : String}
    {r : Except ReferenceError Schema} (h : c.Leads origin followed path r) :
    ∃ n, ∀ steps, c.chase origin (steps + n) followed path = r := by
  induction h with
  | circular h =>
    exact ⟨1, fun steps => by rw [chase, if_pos (List.contains_iff_mem.mpr h)]⟩
  | unnamed hnew hname =>
    refine ⟨1, fun steps => ?_⟩
    rw [chase, if_neg (mt List.contains_iff_mem.mp hnew), hname]
    rfl
  | missing hnew hname h =>
    refine ⟨1, fun steps => ?_⟩
    rw [chase, if_neg (mt List.contains_iff_mem.mp hnew), hname]
    simp only [bind, Except.bind, h]
  | found hnew hname h =>
    refine ⟨1, fun steps => ?_⟩
    rw [chase, if_neg (mt List.contains_iff_mem.mp hnew), hname]
    simp only [bind, Except.bind, h]
  | next hnew hname h _ ih =>
    obtain ⟨n, hn⟩ := ih
    refine ⟨n + 1, fun steps => ?_⟩
    rw [← Nat.add_assoc, chase, if_neg (mt List.contains_iff_mem.mp hnew), hname]
    simp only [bind, Except.bind, h, hn steps]

/-- **A chain leads to one end only**, since a search that is long enough for both has one
answer. -/
theorem Leads.unique {followed : List String} {path : String}
    {r r' : Except ReferenceError Schema} (h : c.Leads origin followed path r)
    (h' : c.Leads origin followed path r') : r = r' := by
  obtain ⟨n, hn⟩ := h.exists_chase_eq
  obtain ⟨n', hn'⟩ := h'.exists_chase_eq
  rw [← hn n', Nat.add_comm, hn' n]

/-- **A search with steps left for every name comes to an end of the chain.** By induction
on the steps. What has been followed grows as the steps get fewer, so at the end all names
have been followed, and there is no room for another. -/
theorem leads_chase {steps : Nat} {followed : List String} (hnodup : followed.Nodup)
    (hnames : ∀ path ∈ followed, c.Names path)
    (hsteps : c.schemas.size < steps + followed.length) (path : String) :
    c.Leads origin followed path (c.chase origin steps followed path) := by
  induction steps generalizing followed path with
  | zero =>
    have := length_le_size hnodup hnames
    omega
  | succ steps ih =>
    rw [chase]
    split_ifs with hmem
    · exact .circular (List.contains_iff_mem.mp hmem)
    · have hnew : path ∉ followed := mt List.contains_iff_mem.mpr hmem
      cases hname : Reference.nameIn .schemas path with
      | error e => exact .unnamed hnew hname
      | ok name =>
        simp only [bind, Except.bind]
        split
        · next t h => exact .found hnew hname h
        · next next h =>
          -- One reference more is followed, with one step less to go.
          have hpaths : ∀ q ∈ path :: followed, c.Names q := by
            intro q hq
            rcases List.mem_cons.mp hq with rfl | hq
            · exact names_of_find? hname h
            · exact hnames q hq
          exact .next hnew hname h (ih (List.nodup_cons.mpr ⟨hnew, hnodup⟩) hpaths
            (by rw [List.length_cons]; omega) next)
        · next h => exact .missing hnew hname h

/-- **Every chain of references comes to an end**, and the lookup answers it. -/
theorem leads_schemaAt (c : Components) (path : String) :
    c.Leads path [] path (c.schemaAt path) :=
  leads_chase List.nodup_nil nofun (by simp) path

/-- A container that a reference leads to has its name from the table. -/
theorem names_of_containerAt? {path : String} {t : Schema}
    (h : c.containerAt? path = some t) : c.Names path := by
  have hleads := c.leads_schemaAt path
  unfold containerAt? at h
  split at h
  · next t' ht =>
    rw [ht] at hleads
    cases hleads with
    | found _ hname hfind => exact names_of_find? hname hfind
    | next _ hname hfind _ => exact names_of_find? hname hfind
  · cases h

/-- A reference leads to a container if its chain leads to a schema that is one. As a chain
has one end, what the lookup finds can be compared with any derivation. -/
theorem containerAt?_eq_some_iff {path : String} {t : Schema} :
    c.containerAt? path = some t ↔ c.Leads path [] path (.ok t) ∧ t.isContainer = true := by
  have hleads := c.leads_schemaAt path
  unfold containerAt?
  split
  · next t' ht =>
    rw [ht] at hleads
    split_ifs with hc
    · constructor
      · rintro h
        cases h
        exact ⟨hleads, hc⟩
      · rintro ⟨h, -⟩
        cases hleads.unique h
        rfl
    · refine ⟨nofun, fun h => ?_⟩
      cases hleads.unique h.1
      exact absurd h.2 hc
  · next e he =>
    rw [he] at hleads
    refine ⟨nofun, fun h => ?_⟩
    cases hleads.unique h.1

/-- A reference leads to no container exactly if what its chain leads to is none. -/
theorem containerAt?_eq_none_iff {path : String} {r : Except ReferenceError Schema}
    (hr : c.Leads path [] path r) :
    c.containerAt? path = none ↔ ∀ t, r = .ok t → t.isContainer = false := by
  rw [Option.eq_none_iff_forall_ne_some]
  refine forall_congr' (fun t => ?_)
  rw [Ne, containerAt?_eq_some_iff]
  constructor
  · rintro h rfl
    exact Bool.eq_false_iff.mpr (fun hc => h ⟨hr, hc⟩)
  · rintro h ⟨hleads, hc⟩
    rw [h (hr.unique hleads)] at hc
    cases hc

/-! ## Inlining

An inlining remembers what it has followed in the same way. It follows references between
containers, though, and each of those by a whole chain, so the two lists are not the same. -/

/-- **One inlining of the items of a schema**, without a bound on its steps:
`Inlines c visited s paths s' changed` says that it goes down from `s`, having followed
`visited` before, puts containers in the place of the references `paths`, one after the
other, and makes `s'`; `changed` is what it reports. -/
inductive Inlines (c : Components) :
    List String → Schema → List String → Schema → Bool → Prop
  | noArray {visited : List String} {s : Schema} (h : s.isArray = false) :
      Inlines c visited s [] s false
  | noItems {visited : List String} {s : Schema} (h : s.items = none) :
      Inlines c visited s [] s false
  | nested {visited paths : List String} {s u u' : Schema} {changed : Bool}
      (ha : s.isArray = true) (hi : s.items = some (.inline u))
      (h : Inlines c visited u paths u' changed) :
      Inlines c visited s paths { s with items := some (.inline u') } changed
  | seen {visited : List String} {s : Schema} {path : String} (ha : s.isArray = true)
      (hi : s.items = some (.ref path)) (h : path ∈ visited) : Inlines c visited s [] s false
  | kept {visited : List String} {s : Schema} {path : String}
      {r : Except ReferenceError Schema} (ha : s.isArray = true)
      (hi : s.items = some (.ref path)) (hnew : path ∉ visited) (hr : c.Leads path [] path r)
      (h : ∀ t, r = .ok t → t.isContainer = false) : Inlines c visited s [] s false
  | placed {visited paths : List String} {s t t' : Schema} {path : String} {changed : Bool}
      (ha : s.isArray = true) (hi : s.items = some (.ref path)) (hnew : path ∉ visited)
      (ht : c.Leads path [] path (.ok t)) (hc : t.isContainer = true)
      (h : Inlines c (path :: visited) t paths t' changed) :
      Inlines c visited s (path :: paths) { s with items := some (.inline t') } true

variable {visited paths : List String} {s s' : Schema} {changed : Bool}

/-- **No reference is expanded twice**, nor one that was followed before. -/
theorem Inlines.nodup (h : c.Inlines visited s paths s' changed) :
    paths.Nodup ∧ ∀ path ∈ paths, path ∉ visited := by
  induction h with
  | noArray | noItems | seen | kept => exact ⟨List.nodup_nil, nofun⟩
  | nested _ _ _ ih => exact ih
  | placed _ _ hnew _ _ _ ih =>
    obtain ⟨hnodup, hnot⟩ := ih
    refine ⟨List.nodup_cons.mpr ⟨fun hmem => hnot _ hmem List.mem_cons_self, hnodup⟩, ?_⟩
    intro path hpath
    rcases List.mem_cons.mp hpath with rfl | hpath
    · exact hnew
    · exact fun hmem => hnot path hpath (List.mem_cons_of_mem _ hmem)

/-- What is expanded has its name from the table. -/
theorem Inlines.names (h : c.Inlines visited s paths s' changed) :
    ∀ path ∈ paths, c.Names path := by
  induction h with
  | noArray | noItems | seen | kept => exact nofun
  | nested _ _ _ ih => exact ih
  | placed _ _ _ ht hc _ ih =>
    intro path hpath
    rcases List.mem_cons.mp hpath with rfl | hpath
    · exact names_of_containerAt? (containerAt?_eq_some_iff.mpr ⟨ht, hc⟩)
    · exact ih path hpath

/-- **A change is reported exactly if there is one.** Putting a container in place always is
one, as a reference is no inline schema; below nested arrays it is one exactly if the items
change. -/
theorem Inlines.changed_iff (h : c.Inlines visited s paths s' changed) :
    changed = true ↔ s' ≠ s := by
  induction h with
  | noArray | noItems | seen | kept => simp
  | @nested _ _ s u u' _ _ hi _ ih =>
    rw [ih]
    refine not_congr ⟨?_, fun h => ?_⟩
    · rintro rfl
      exact with_items_self hi
    · have hitems := congrArg Schema.items h
      rw [hi] at hitems
      exact RefOr.inline.inj (Option.some.inj hitems)
  | placed _ hi _ _ _ _ _ =>
    refine ⟨fun _ h => ?_, fun _ => rfl⟩
    have hitems := congrArg Schema.items h
    rw [hi] at hitems
    cases hitems

/-- If no change is reported, there is none. -/
theorem Inlines.eq_of_unchanged (h : c.Inlines visited s paths s' false) : s' = s := by
  by_contra hne
  exact Bool.false_ne_true (h.changed_iff.mpr hne)

/-! ### The bounds are not reached

That a description has a derivation at all is proved from the function: with enough steps it
ends in one of the cases of the description. That there is only one is proved from the
function as well, since every derivation says what long enough searches answer. -/

/-- **An inlining makes what every bounded one with enough steps makes.** By induction on
the rules; only what is put in place takes a step, so the other cases use the number that
they are given. -/
theorem Inlines.exists_expandFrom?_eq (h : c.Inlines visited s paths s' changed) :
    ∃ n, ∀ steps, c.expandFrom? (steps + (n + 1)) visited s
      = if changed then some s' else none := by
  induction h with
  | noArray h => exact ⟨0, fun steps => expandFrom?_of_not_isArray h steps⟩
  | noItems h => exact ⟨0, fun steps => expandFrom?_of_items_none h steps⟩
  | @nested _ _ _ _ _ changed ha hi _ ih =>
    obtain ⟨n, hn⟩ := ih
    refine ⟨n, fun steps => ?_⟩
    rw [← Nat.add_assoc, expandFrom?_of_inline ha hi, Nat.add_assoc, hn steps]
    cases changed <;> rfl
  | seen ha hi h =>
    refine ⟨0, fun steps => ?_⟩
    rw [Nat.zero_add, expandFrom?_of_ref ha hi, replacement?,
      if_pos (List.contains_iff_mem.mpr h)]
    rfl
  | kept ha hi hnew hr h =>
    refine ⟨0, fun steps => ?_⟩
    rw [Nat.zero_add, expandFrom?_of_ref ha hi, replacement?,
      if_neg (mt List.contains_iff_mem.mp hnew), (containerAt?_eq_none_iff hr).mpr h]
    rfl
  | @placed visited _ s t t' path changed ha hi hnew ht hc h ih =>
    obtain ⟨n, hn⟩ := ih
    refine ⟨n + 1, fun steps => ?_⟩
    have ht' : (c.expandFrom? (steps + (n + 1)) (path :: visited) t).getD t = t' := by
      rw [hn steps]
      cases changed with
      | true => rfl
      | false => exact h.eq_of_unchanged.symm
    rw [← Nat.add_assoc, expandFrom?_of_ref ha hi, replacement?,
      if_neg (mt List.contains_iff_mem.mp hnew), containerAt?_eq_some_iff.mpr ⟨ht, hc⟩,
      Option.map_some, Option.map_some, ht']
    rfl

/-- **An inlining makes one result only.** -/
theorem Inlines.unique {paths' : List String} {s'' : Schema} {changed' : Bool}
    (h : c.Inlines visited s paths s' changed) (h' : c.Inlines visited s paths' s'' changed') :
    s'' = s' ∧ changed' = changed := by
  obtain ⟨n, hn⟩ := h.exists_expandFrom?_eq
  obtain ⟨n', hn'⟩ := h'.exists_expandFrom?_eq
  have heq : (if changed' then some s'' else none) = if changed then some s' else none := by
    rw [← hn (n' + 1), Nat.add_comm, hn' (n + 1)]
  cases changed with
  | true =>
    cases changed' with
    | true => exact ⟨Option.some.inj heq, rfl⟩
    | false => cases heq
  | false =>
    cases changed' with
    | true => cases heq
    | false => exact ⟨h'.eq_of_unchanged.trans h.eq_of_unchanged.symm, rfl⟩

/-- What an inlining makes of the inline items it makes of the array. -/
theorem Inlines.of_inline {u : Schema} {o : Option Schema} (ha : s.isArray = true)
    (hi : s.items = some (.inline u)) (h : c.Inlines visited u paths (o.getD u) o.isSome) :
    c.Inlines visited s paths
      ((o.map (fun u' => { s with items := some (.inline u') })).getD s) o.isSome := by
  cases o with
  | none =>
    have hnested := Inlines.nested ha hi h
    rw [Option.getD_none, with_items_self hi] at hnested
    exact hnested
  | some u' => exact .nested ha hi h

/-- **With a step left for every name an inlining comes to its end.** There are two
inductions: on the steps, and within them on the nesting of arrays, since going down to
inline items takes none. -/
theorem exists_inlines {steps : Nat} (hnodup : visited.Nodup)
    (hnames : ∀ path ∈ visited, c.Names path)
    (hsteps : c.schemas.size < steps + visited.length) (s : Schema) :
    ∃ paths, c.Inlines visited s paths ((c.expandFrom? steps visited s).getD s)
      (c.expandFrom? steps visited s).isSome := by
  induction steps generalizing visited s with
  | zero =>
    have := length_le_size hnodup hnames
    omega
  | succ steps ih =>
    induction s using part_induction with
    | h s ihs =>
      cases ha : s.isArray with
      | false =>
        rw [expandFrom?_of_not_isArray ha]
        exact ⟨[], .noArray ha⟩
      | true =>
        cases hi : s.items with
        | none =>
          rw [expandFrom?_of_items_none hi]
          exact ⟨[], .noItems hi⟩
        | some part =>
          cases part with
          | inline u =>
            obtain ⟨paths, hu⟩ := ihs u (.items hi)
            rw [expandFrom?_of_inline ha hi, Option.isSome_map]
            exact ⟨paths, hu.of_inline ha hi⟩
          | ref path =>
            rw [expandFrom?_of_ref ha hi, replacement?]
            split_ifs with hmem
            · exact ⟨[], .seen ha hi (List.contains_iff_mem.mp hmem)⟩
            · have hnew : path ∉ visited := mt List.contains_iff_mem.mpr hmem
              cases hc : c.containerAt? path with
              | none =>
                have hleads := c.leads_schemaAt path
                exact ⟨[], .kept ha hi hnew hleads ((containerAt?_eq_none_iff hleads).mp hc)⟩
              | some t =>
                -- The container is inlined in turn, with the reference to it followed.
                have hpaths : ∀ q ∈ path :: visited, c.Names q := by
                  intro q hq
                  rcases List.mem_cons.mp hq with rfl | hq
                  · exact names_of_containerAt? hc
                  · exact hnames q hq
                obtain ⟨paths, ht⟩ := ih (List.nodup_cons.mpr ⟨hnew, hnodup⟩) hpaths
                  (by rw [List.length_cons]; omega) t
                obtain ⟨hleads, hcontainer⟩ := containerAt?_eq_some_iff.mp hc
                exact ⟨path :: paths, .placed ha hi hnew hleads hcontainer ht⟩

/-- **The inlining of item references comes to an end**, for every schema and whatever
circles the references form. What it makes is what the function answers, each reference is
expanded at most once, so no more of them than there are names, and a change is reported
exactly if there is one.

Both halves are needed: the first says that there is a derivation, and the second speaks of
all of them. -/
theorem inlines_expandItems? (c : Components) (s : Schema) :
    (∃ paths, c.Inlines [] s paths ((c.expandItems? s).getD s) (c.expandItems? s).isSome)
      ∧ ∀ paths s' changed, c.Inlines [] s paths s' changed →
        s' = (c.expandItems? s).getD s ∧ changed = (c.expandItems? s).isSome
        ∧ (changed = true ↔ s' ≠ s)
        ∧ paths.Nodup ∧ paths.length ≤ c.schemas.size := by
  obtain ⟨paths₀, h₀⟩ : ∃ paths, c.Inlines [] s paths ((c.expandItems? s).getD s)
      (c.expandItems? s).isSome := exists_inlines List.nodup_nil nofun (by simp) s
  refine ⟨⟨paths₀, h₀⟩, fun paths s' changed h => ?_⟩
  obtain ⟨hs, hchanged⟩ := h₀.unique h
  exact ⟨hs, hchanged, h.changed_iff, h.nodup.1, length_le_size h.nodup.1 h.names⟩

end Components

end ClientGen
