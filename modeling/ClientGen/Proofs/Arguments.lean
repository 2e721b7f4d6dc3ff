import ClientGen.Proofs.Grouping

/-!
# The arguments of a call

A signature is written argument by argument, and an argument says whether another follows. This
is settled where a call is made, and again by each adjustment that moves or drops arguments: one
marks all arguments anew, the other repairs the last one only. It may, because whatever is
dropped, an argument that another still follows was followed before
(`Client.Argument.Followed.endHere_filter`).

So in every call of a client the marks are right, and apart from them and from the types of
binary data its arguments are those that its operation has, without those to be left out, and
with those of the path in front where this is wanted (`Document.toClient_serves`).
-/

namespace ClientGen

namespace Client.Argument

variable {p q : Argument} {ps qs : List Argument}

/-! ## Which argument is followed by another

The repair of the last argument takes its mark away, and sets none. So what it needs is that
every other argument is marked, and this is left of right marks when arguments are dropped. -/

/-- **The marks are right**: exactly the last argument is not marked. -/
def Followed (ps : List Argument) : Prop :=
  ∀ i (h : i < ps.length), ps[i].hasMore = decide (i + 1 < ps.length)

/-- Without arguments there is nothing to mark. -/
theorem followed_nil : Followed [] := fun _ h => absurd h (Nat.not_lt_zero _)

/-- An argument is followed if there are more, whose marks are right in themselves. It turns
the statement about places into one along the list. -/
theorem followed_cons : Followed (p :: ps) ↔ p.hasMore = !ps.isEmpty ∧ Followed ps := by
  have hfirst : decide (0 + 1 < (p :: ps).length) = !ps.isEmpty := by
    cases ps <;> rfl
  have hrest : ∀ i, decide (i + 1 + 1 < (p :: ps).length) = decide (i + 1 < ps.length) := by
    intro i
    rw [List.length_cons, decide_eq_decide, Nat.add_lt_add_iff_right]
  constructor
  · intro h
    exact ⟨(h 0 (Nat.zero_lt_succ _)).trans hfirst,
      fun i hi => (h (i + 1) (Nat.succ_lt_succ hi)).trans (hrest i)⟩
  · rintro ⟨hp, hps⟩ i hi
    cases i with
    | zero => exact hp.trans hfirst.symm
    | succ i => exact (hps i (Nat.lt_of_succ_lt_succ hi)).trans (hrest i).symm

/-- Marking all arguments anew makes the marks right. -/
theorem followed_markFollowed (ps : List Argument) : Followed (markFollowed ps) := by
  induction ps using markFollowed.induct with
  | case1 => exact followed_nil
  | case2 p => exact followed_cons.mpr ⟨rfl, followed_nil⟩
  | case3 p q ps ih =>
    refine followed_cons.mpr ⟨?_, ih⟩
    cases ps <;> rfl

/-- Right marks stay right under a change to something else. -/
theorem Followed.map (h : Followed ps) {f : Argument → Argument}
    (hf : ∀ p, (f p).hasMore = p.hasMore) : Followed (ps.map f) := by
  intro i hi
  rw [List.getElem_map, hf]
  exact (h i (List.length_map f ▸ hi)).trans (by rw [List.length_map])

/-- If the marks are right, then in particular any argument before another is marked. -/
theorem Followed.pairwise (h : Followed ps) : ps.Pairwise (fun p _ => p.hasMore = true) := by
  induction ps with
  | nil => exact .nil
  | cons p ps ih =>
    obtain ⟨hp, hps⟩ := followed_cons.mp h
    refine .cons (fun q hq => ?_) (ih hps)
    rw [hp, List.isEmpty_eq_false_iff_exists_mem.mpr ⟨q, hq⟩]
    rfl

/-- Then unmarking the last argument makes the marks right. -/
theorem followed_endHere (h : ps.Pairwise (fun p _ => p.hasMore = true)) :
    Followed (endHere ps) := by
  induction ps using endHere.induct with
  | case1 => exact followed_nil
  | case2 p => exact followed_cons.mpr ⟨rfl, followed_nil⟩
  | case3 p q ps ih =>
    obtain ⟨hp, hps⟩ := List.pairwise_cons.mp h
    refine followed_cons.mpr ⟨(hp q List.mem_cons_self).trans ?_, ih hps⟩
    cases ps <;> rfl

/-- **Repairing the last argument is enough** after some have been dropped. -/
theorem Followed.endHere_filter (h : Followed ps) (keep : Argument → Bool) :
    Followed (endHere (ps.filter keep)) :=
  followed_endHere (h.pairwise.filter keep)

/-! ## Arguments without their marks

Marks are compared with the arguments that follow, and everything else with the operation.
To keep the two apart, arguments are compared without their marks. -/

/-- An argument without its mark. -/
def unmarked (p : Argument) : Argument := { p with hasMore := false }

/-- Marking changes nothing but marks. -/
theorem map_unmarked_markFollowed (ps : List Argument) :
    (markFollowed ps).map unmarked = ps.map unmarked := by
  induction ps using markFollowed.induct with
  | case1 => rfl
  | case2 p => rfl
  | case3 p q ps ih =>
    rw [markFollowed, List.map_cons, ih]
    rfl

/-- Nor does unmarking the last argument. -/
theorem map_unmarked_endHere (ps : List Argument) :
    (endHere ps).map unmarked = ps.map unmarked := by
  induction ps using endHere.induct with
  | case1 => rfl
  | case2 p => rfl
  | case3 p q ps ih =>
    rw [endHere, List.map_cons, ih]
    rfl

/-- What an argument says apart from its mark decides whether it is kept. -/
theorem map_unmarked_filter {keep : Argument → Bool} (hkeep : ∀ p, keep p.unmarked = keep p)
    (ps : List Argument) : (ps.filter keep).map unmarked = (ps.map unmarked).filter keep := by
  rw [List.filter_map]
  exact congrArg _ (List.filter_congr (fun p _ => (hkeep p).symm))

/-- **An argument is that of another**, up to its mark, and up to the types if it has binary data
and there is a type for it. -/
structure IsOf (binaryType : Option String) (p q : Argument) : Prop where
  same : q = { p with
    hasMore := q.hasMore, dataType := q.dataType, elementType := q.elementType }
  binary : ∀ type, binaryType = some type → p.format = some "binary" →
    q.dataType = type ∧ q.elementType = type
  other : binaryType = none ∨ p.format ≠ some "binary" →
    q.dataType = p.dataType ∧ q.elementType = p.elementType

/-- Arguments that are the same without their marks differ in the mark only. -/
theorem exists_of_unmarked (h : p.unmarked = q.unmarked) :
    ∃ mark, q = { p with hasMore := mark } := by
  obtain ⟨⟩ := p
  obtain ⟨⟩ := q
  cases h
  exact ⟨_, rfl⟩

/-- Without a type for binary data it is the same up to its mark. -/
theorem isOf_none (h : p.unmarked = q.unmarked) : p.IsOf none q := by
  obtain ⟨mark, rfl⟩ := exists_of_unmarked h
  exact ⟨rfl, fun _ htype => absurd htype.symm (Option.some_ne_none _), fun _ => ⟨rfl, rfl⟩⟩

/-- With one, it has this type if it has binary data. -/
theorem isOf_some (type : String) (h : p.unmarked = q.unmarked) :
    p.IsOf (some type)
      (if q.isBinary then { q with dataType := type, elementType := type } else q) := by
  obtain ⟨mark, rfl⟩ := exists_of_unmarked h
  split_ifs with hbinary
  · have hformat : p.format = some "binary" := of_decide_eq_true hbinary
    refine ⟨rfl, fun _ htype _ => ?_, fun hother => ?_⟩
    · cases htype
      exact ⟨rfl, rfl⟩
    · exact absurd hformat (hother.resolve_left (Option.some_ne_none type))
  · exact ⟨rfl, fun _ _ hformat => absurd (decide_eq_true hformat) hbinary,
      fun _ => ⟨rfl, rfl⟩⟩

/-! ## What an adjustment makes of arguments

An adjustment drops arguments, puts them in order and gives types to binary data, in this
sequence and each only if it is wanted. The first two set the marks right behind what they
do, and the third changes no mark. -/

/-- **A stable order with path arguments in front**: the order is kept among the arguments of
the path, and among the others. -/
structure IsPathFirst (ps qs : List Argument) : Prop where
  first : qs.Pairwise (fun p q => q.kind = .path → p.kind = .path)
  paths : qs.filter (·.kind = .path) = ps.filter (·.kind = .path)
  others : qs.filter (·.kind ≠ .path) = ps.filter (·.kind ≠ .path)

/-- Both parts one after the other are in this order. -/
theorem isPathFirst_append (ps : List Argument) :
    IsPathFirst ps (ps.filter (·.kind = .path) ++ ps.filter (·.kind ≠ .path)) where
  first := by
    have hpath : ∀ p ∈ ps.filter (·.kind = .path), p.kind = .path :=
      fun p hp => of_decide_eq_true (List.mem_filter.mp hp).2
    have hother : ∀ p ∈ ps.filter (·.kind ≠ .path), p.kind ≠ .path :=
      fun p hp => of_decide_eq_true (List.mem_filter.mp hp).2
    refine List.pairwise_append.mpr ⟨?_, ?_, fun p hp _ _ _ => hpath p hp⟩
    · exact List.pairwise_of_forall_mem_list (fun p hp _ _ _ => hpath p hp)
    · exact List.pairwise_of_forall_mem_list (fun _ _ q hq h => absurd h (hother q hq))
  paths := by
    rw [List.filter_append, List.filter_filter, List.filter_filter]
    simp
  others := by
    rw [List.filter_append, List.filter_filter, List.filter_filter]
    simp

/-- **The arguments of a call are those of its operation**: without those whose wire names are
in `removes`, with path arguments in front if `putsPathFirst`, with the given type for binary
data, and with right marks. -/
structure AreOf (removes : List String) (putsPathFirst : Bool) (binaryType : Option String)
    (ps qs : List Argument) : Prop where
  followed : Followed qs
  kept : ∃ kept, List.Forall₂ (IsOf binaryType) kept qs
    ∧ if putsPathFirst then IsPathFirst (ps.filter (·.wireName ∉ removes)) kept
      else kept = ps.filter (·.wireName ∉ removes)

/-- So each of them is that of an argument of the operation. Where path arguments are in
front, an argument that is kept is found again among those of the path or among the others. -/
theorem AreOf.exists_of_mem {removes : List String} {putsPathFirst : Bool}
    {binaryType : Option String} (h : AreOf removes putsPathFirst binaryType ps qs) {q : Argument}
    (hq : q ∈ qs) : ∃ p ∈ ps, p.IsOf binaryType q := by
  obtain ⟨kept, hkept, hof⟩ := h.kept
  obtain ⟨p, hp, hpq⟩ := exists_of_mem_of_forall₂ hkept hq
  refine ⟨p, ?_, hpq⟩
  split_ifs at hof
  · by_cases hpath : p.kind = .path
    · have hmem : p ∈ kept.filter (·.kind = .path) :=
        List.mem_filter.mpr ⟨hp, decide_eq_true hpath⟩
      rw [hof.paths, List.mem_filter, List.mem_filter] at hmem
      exact hmem.1.1
    · have hmem : p ∈ kept.filter (·.kind ≠ .path) :=
        List.mem_filter.mpr ⟨hp, decide_eq_true hpath⟩
      rw [hof.others, List.mem_filter, List.mem_filter] at hmem
      exact hmem.1.1
  · rw [hof] at hp
    exact (List.mem_filter.mp hp).1

/-- What is left after arguments have been dropped. -/
theorem map_unmarked_without (removes : List String) (ps : List Argument) :
    (without removes ps).map unmarked
      = (ps.filter (·.wireName ∉ removes)).map unmarked := by
  unfold without
  split_ifs with hnone
  · rw [List.isEmpty_iff.mp hnone, List.filter_eq_self.mpr (fun p _ => by simp)]
  · rw [map_unmarked_endHere]
    refine congrArg _ (List.filter_congr (fun p _ => ?_))
    simp

/-- Dropping arguments keeps marks right. -/
theorem Followed.without (h : Followed ps) (removes : List String) :
    Followed (without removes ps) := by
  unfold Argument.without
  split_ifs
  · exact h
  · exact h.endHere_filter _

/-- What has been put in order, of arguments that differ in their marks only. -/
theorem map_unmarked_pathFirst (h : ps.map unmarked = qs.map unmarked) :
    (pathFirst ps).map unmarked
      = (qs.filter (·.kind = .path) ++ qs.filter (·.kind ≠ .path)).map unmarked := by
  unfold pathFirst
  rw [map_unmarked_markFollowed, List.map_append, List.map_append,
    map_unmarked_filter (fun _ => rfl), map_unmarked_filter (fun _ => rfl),
    map_unmarked_filter (fun _ => rfl), map_unmarked_filter (fun _ => rfl), h]

/-- Giving types to binary data, of arguments that differ in their marks only. -/
theorem forall₂_isOf_withBinaryType (type : String) (h : ps.map unmarked = qs.map unmarked) :
    List.Forall₂ (IsOf (some type)) ps (withBinaryType type qs) :=
  List.forall₂_map_right_iff.mpr
    ((forall₂_of_map_eq_map h).imp (fun _ _ hpq => isOf_some type hpq))

end Client.Argument

/-- **What an adjustment makes of arguments whose marks are right.** What is kept is fixed
first; each of the steps is then compared with it, up to the marks. -/
theorem Client.ApiAdjustment.areOf_arguments (a : Client.ApiAdjustment)
    {ps : List Client.Argument} (h : Client.Argument.Followed ps) :
    Client.Argument.AreOf a.removes a.putsPathFirst a.binaryType ps (a.arguments ps) := by
  obtain ⟨kept, moved, hkept, hmoved, hfollowed, hnone, hsome⟩ :
      ∃ kept moved, (if a.putsPathFirst
          then Client.Argument.IsPathFirst (ps.filter (·.wireName ∉ a.removes)) kept
          else kept = ps.filter (·.wireName ∉ a.removes))
        ∧ moved.map Client.Argument.unmarked = kept.map Client.Argument.unmarked
        ∧ Client.Argument.Followed moved
        ∧ (a.binaryType = none → a.arguments ps = moved)
        ∧ ∀ type, a.binaryType = some type →
            a.arguments ps = Client.Argument.withBinaryType type moved := by
    have hwithout := Client.Argument.map_unmarked_without a.removes ps
    unfold arguments
    split_ifs with hfirst
    · exact ⟨_, _, Client.Argument.isPathFirst_append _,
        Client.Argument.map_unmarked_pathFirst hwithout,
        Client.Argument.followed_markFollowed _, fun h => by rw [h], fun _ h => by rw [h]⟩
    · exact ⟨_, _, rfl, hwithout, h.without _, fun h => by rw [h], fun _ h => by rw [h]⟩
  cases htype : a.binaryType with
  | none =>
    rw [hnone htype]
    exact ⟨hfollowed, kept,
      (forall₂_of_map_eq_map hmoved.symm).imp (fun _ _ => Client.Argument.isOf_none), hkept⟩
  | some type =>
    rw [hsome type htype]
    refine ⟨hfollowed.map (fun p => ?_), kept,
      Client.Argument.forall₂_isOf_withBinaryType type hmoved.symm, hkept⟩
    split_ifs <;> rfl

/-! ## The names of arguments

Every kind of argument is named by the same function, be it made of a parameter, of a body
or of a field of a form. No adjustment changes a name. -/

/-- The arguments of a request body are named for their names on the wire. -/
theorem Converter.name_of_mem_bodyParameters {k : Converter} {body : RequestBody}
    {ps : List Client.Argument} (h : k.bodyParameters body = .ok ps) :
    ∀ p ∈ ps, p.name = Naming.variableName p.wireName := by
  unfold bodyParameters at h
  split at h
  · split_ifs at h
    · obtain ⟨form, -, h⟩ := except_bind_eq_ok.mp h
      cases h
      intro p hp
      obtain ⟨e, -, rfl⟩ := List.mem_map.mp hp
      dsimp only
    · cases h
      intro p hp
      rw [List.mem_singleton.mp hp]
      dsimp only [bodyParameter]
  · cases h
    exact fun p hp => absurd hp List.not_mem_nil

/-- So are all arguments of a call. -/
theorem DeclaredOperation.name_of_mem_arguments {k : Converter} {o : DeclaredOperation}
    {call : Client.Call} (h : o.call k = .ok call) :
    ∀ p ∈ call.arguments, p.name = Naming.variableName p.wireName := by
  obtain ⟨declared, body, fromBody, -, -, -, hfromBody, -, rfl⟩ := Converter.operation_eq_ok h
  have hgiven : ∀ p ∈ declared.map k.parameter ++ fromBody,
      p.name = Naming.variableName p.wireName := by
    intro p hp
    rcases List.mem_append.mp hp with hp | hp
    · obtain ⟨declaration, -, rfl⟩ := List.mem_map.mp hp
      dsimp only [Converter.parameter]
    · cases body with
      | none =>
        cases hfromBody
        cases hp
      | some body => exact Converter.name_of_mem_bodyParameters hfromBody p hp
  -- marking which of them are followed by another leaves both names
  intro p hp
  have hmem : p.unmarked ∈ (declared.map k.parameter ++ fromBody).map Client.Argument.unmarked := by
    rw [← Client.Argument.map_unmarked_markFollowed]
    exact List.mem_map_of_mem hp
  obtain ⟨q, hq, heq⟩ := List.mem_map.mp hmem
  obtain ⟨mark, rfl⟩ := Client.Argument.exists_of_unmarked heq
  exact hgiven q hq

/-! ## Forms with parts

Whether a call takes a form with parts is asked of the media types that it consumes, of
which the first counts. They are those of the request body, in its order. -/

/-- **An operation takes a form with parts**: this is the first media type of its request
body. -/
def DeclaredOperation.TakesParts (o : DeclaredOperation) (c : Components) : Prop :=
  ∃ part body, o.operation.requestBody = some part ∧ c.requestBody part = .ok body
    ∧ body.content.keys.head? = some Client.multipartForm

/-- A list of media types starts with the form with parts if it comes from such a content. -/
theorem startsMultipart_mediaTypes {content : OrderedMap MediaType} :
    Client.startsMultipart (Converter.mediaTypes content) = true
      ↔ content.keys.head? = some Client.multipartForm := by
  unfold Converter.mediaTypes
  cases content.keys with
  | nil => simp [Client.startsMultipart]
  | cons mediaType _ => simp [Client.startsMultipart]

/-- A list of media types has to be there to start with something. -/
theorem isEmpty_of_startsMultipart {mediaTypes : List (Option String)}
    (h : Client.startsMultipart mediaTypes = true) : (!mediaTypes.isEmpty) = true := by
  cases mediaTypes with
  | nil => cases h
  | cons _ _ => rfl

/-- The media types that an operation consumes start so if it takes a form with parts. A
body that cannot be looked up is no case, as the operation would not be a call then. -/
theorem DeclaredOperation.startsMultipart_iff {k : Converter} {o : DeclaredOperation}
    {body : Option RequestBody} (h : k.requestBody? o.operation = .ok body) :
    Client.startsMultipart ((body.map (fun b => Converter.mediaTypes b.content)).getD []) = true
      ↔ o.TakesParts k.components := by
  unfold Converter.requestBody? at h
  unfold TakesParts
  cases hpart : o.operation.requestBody with
  | none =>
    rw [hpart] at h
    cases h
    simp [Client.startsMultipart]
  | some part =>
    rw [hpart] at h
    dsimp only at h
    cases hb : k.components.requestBody part with
    | error e =>
      rw [hb] at h
      cases h
    | ok b =>
      rw [hb] at h
      cases h
      refine startsMultipart_mediaTypes.trans ⟨fun hfirst => ⟨part, b, rfl, hb, hfirst⟩, ?_⟩
      rintro ⟨part', b', hpart', hb', hfirst⟩
      obtain rfl := Option.some.inj hpart'
      obtain rfl := Except.ok.inj (hb.symm.trans hb')
      exact hfirst

/-- **A call is found to be multipart** exactly if its operation takes a form with parts. -/
theorem DeclaredOperation.findsMultipart_iff {k : Converter} {o : DeclaredOperation}
    {call : Client.Call} (a : Client.ApiAdjustment) (h : o.call k = .ok call) :
    a.findsMultipart call = true ↔ a.detectsMultipart = true ∧ o.TakesParts k.components := by
  obtain ⟨-, body, -, -, -, hbody, -, -, rfl⟩ := Converter.operation_eq_ok h
  have hstarts := startsMultipart_iff hbody
  unfold Client.ApiAdjustment.findsMultipart
  rw [Bool.and_eq_true, Bool.and_eq_true, and_assoc, and_congr_right_iff]
  intro _
  exact ⟨fun h => hstarts.mp h.2,
    fun h => ⟨isEmpty_of_startsMultipart (hstarts.mpr h), hstarts.mpr h⟩⟩

/-- Preparation leaves request bodies alone. -/
theorem DeclaredOperation.takesParts_of_prepared {p : Preparation} {c c' : Components}
    (h : Conversion.preparedComponents p c = .ok c') (o : DeclaredOperation) :
    o.TakesParts c' ↔ o.TakesParts c := by
  rw [(Conversion.preparedComponents_entries h).2]
  exact Iff.rfl

/-! ## The arguments of a client

An adjustment works on an API that the operations of a tag have made, and looks at the calls
before it changes them. That the marks are right then, and no call is multipart yet, comes
from how calls are made. -/

/-- **An adjusted API is multipart** exactly if one of its calls is, although the calls are
asked before they are adjusted: none of them is multipart yet, and what is asked does not
change. -/
theorem Client.ApiAdjustment.apply_isMultipart (a : Client.ApiAdjustment) {api : Client.Api}
    (hapi : api.isMultipart = false) (hcalls : ∀ call ∈ api.calls, call.isMultipart = false) :
    (a.apply api).isMultipart = true ↔ ∃ call ∈ (a.apply api).calls, call.isMultipart = true := by
  have hadjusted : ∀ call ∈ api.calls, (a.call call).isMultipart = a.findsMultipart call := by
    intro call hcall
    show (call.isMultipart || a.findsMultipart call) = a.findsMultipart call
    rw [hcalls call hcall, Bool.false_or]
  show (api.isMultipart || api.calls.any a.findsMultipart) = true
    ↔ ∃ call ∈ api.calls.map a.call, call.isMultipart = true
  rw [hapi, Bool.false_or, List.any_eq_true]
  constructor
  · rintro ⟨call, hcall, hfinds⟩
    exact ⟨a.call call, List.mem_map_of_mem hcall, (hadjusted call hcall).trans hfinds⟩
  · rintro ⟨_, hmem, hmultipart⟩
    obtain ⟨call, hcall, rfl⟩ := List.mem_map.mp hmem
    exact ⟨call, hcall, (hadjusted call hcall).symm.trans hmultipart⟩

/-- No call is multipart before it is adjusted. -/
theorem DeclaredOperation.call_isMultipart {k : Converter} {o : DeclaredOperation}
    {call : Client.Call} (h : o.call k = .ok call) : call.isMultipart = false := by
  obtain ⟨-, -, -, -, -, -, -, -, rfl⟩ := Converter.operation_eq_ok h
  rfl

/-- The marks of the arguments are right before they are adjusted. -/
theorem DeclaredOperation.followed_of_call {k : Converter} {o : DeclaredOperation}
    {call : Client.Call} (h : o.call k = .ok call) : Client.Argument.Followed call.arguments := by
  obtain ⟨-, -, -, -, -, -, -, -, rfl⟩ := Converter.operation_eq_ok h
  exact Client.Argument.followed_markFollowed _

/-- **An argument of a client is named for its name on the wire.** -/
theorem Document.name_of_mem_arguments {d : Document} {policy : ConversionPolicy}
    {options : ConversionOptions} {client : Client} (h : d.toClient policy options = .ok client)
    {api : Client.Api} (hapi : api ∈ client.apis) {call : Client.Call} (hcall : call ∈ api.calls)
    {q : Client.Argument} (hq : q ∈ call.arguments) :
    q.name = Naming.variableName q.wireName := by
  obtain ⟨k, calls, -, hcalls, hapis⟩ := toClient_apis h
  rw [hapis] at hapi
  obtain ⟨tag, -, rfl⟩ := List.mem_map.mp hapi
  obtain ⟨given, hgiven, rfl⟩ := List.mem_map.mp hcall
  obtain ⟨o, -, ho⟩ := exists_of_mem_of_forall₂ hcalls (List.mem_filter.mp hgiven).1
  have hadjusted := (Conversion.apiAdjustment policy options).areOf_arguments
    (DeclaredOperation.followed_of_call ho)
  obtain ⟨p, hp, hof⟩ := hadjusted.exists_of_mem hq
  rw [hof.same]
  exact DeclaredOperation.name_of_mem_arguments ho p hp

/-- **A call serves an operation** of a document: its arguments are those of the operation, and
it is multipart if the operation takes a form with parts and this is looked for. -/
structure DeclaredOperation.IsServed (d : Document) (policy : ConversionPolicy)
    (options : ConversionOptions) (k : Converter) (o : DeclaredOperation) (call : Client.Call) :
    Prop where
  arguments : ∃ given, o.call k = .ok given
    ∧ Client.Argument.AreOf (if policy.removesParameters then options.removes else [])
      policy.putsPathFirst policy.binaryType given.arguments call.arguments
  isMultipart : call.isMultipart = true
    ↔ policy.detectsMultipart = true ∧ o.TakesParts d.componentsOrNone

/-- **A client serves a document**: the calls of every API serve the operations of its tag, one
by one; an API is multipart if one of its calls is, and the client if one of its APIs is. -/
structure Client.Serves (client : Client) (d : Document) (policy : ConversionPolicy)
    (options : ConversionOptions) (k : Converter) : Prop where
  calls : ∀ api ∈ client.apis, List.Forall₂ (DeclaredOperation.IsServed d policy options k)
    (d.declared.filter (·.tag = api.tag)) api.calls
  apis : ∀ api ∈ client.apis,
    (api.isMultipart = true ↔ ∃ call ∈ api.calls, call.isMultipart = true)
  isMultipart : client.isMultipart = true ↔ ∃ api ∈ client.apis, api.isMultipart = true

namespace Document

open Conversion

variable {d : Document} {policy : ConversionPolicy} {options : ConversionOptions} {client : Client}

/-- An adjusted call serves the operation that it is made from. -/
theorem isServed_of_call {k : Converter} (hk : d.converter policy options = .ok k)
    {o : DeclaredOperation} {call : Client.Call} (h : o.call k = .ok call) :
    o.IsServed d policy options k ((apiAdjustment policy options).call call) where
  arguments := ⟨call, h, Client.ApiAdjustment.areOf_arguments (apiAdjustment policy options)
    (DeclaredOperation.followed_of_call h)⟩
  isMultipart := by
    show (call.isMultipart || (apiAdjustment policy options).findsMultipart call) = true ↔ _
    rw [DeclaredOperation.call_isMultipart h, Bool.false_or,
      DeclaredOperation.findsMultipart_iff _ h,
      DeclaredOperation.takesParts_of_prepared (converter_eq_ok.mp hk).1]
    rfl

/-- **The client of a document serves it.** Calls are made operation by operation, collected
by tags, and adjusted one by one; the flags of APIs and of the client come from those of the
calls.

The arguments are compared with those that the converter gives to the operation, and not
with the parameters of the document: how parameters become arguments is the same for every
policy. -/
theorem toClient_serves (h : d.toClient policy options = .ok client) :
    ∃ k, d.converter policy options = .ok k ∧ client.Serves d policy options k := by
  obtain ⟨k, given, hk, hgiven, hapis⟩ := toClient_apis h
  have hgroup : ∀ tag, List.Forall₂ (fun o call => o.call k = .ok call)
      (d.declared.filter (·.tag = tag)) (given.filter (fun call => tagOf call = tag)) := by
    intro tag
    refine List.rel_filter (fun o call hcall => ?_) hgiven
    show decide (o.tag = tag) = true ↔ decide (tagOf call = tag) = true
    rw [tagOf_of_call hcall]
  refine ⟨k, hk, fun api hapi => ?_, fun api hapi => ?_, ?_⟩
  · rw [hapis] at hapi
    obtain ⟨tag, -, rfl⟩ := List.mem_map.mp hapi
    exact List.forall₂_map_right_iff.mpr ((hgroup tag).imp (fun _ _ => isServed_of_call hk))
  · rw [hapis] at hapi
    obtain ⟨tag, -, rfl⟩ := List.mem_map.mp hapi
    refine Client.ApiAdjustment.apply_isMultipart _ rfl (fun call hcall => ?_)
    obtain ⟨o, -, ho⟩ := exists_of_mem_of_forall₂ (hgroup tag) hcall
    exact DeclaredOperation.call_isMultipart ho
  · rw [toClient_isMultipart h, List.any_eq_true]

/-- A document with an operation that takes a form with a file in it. -/
def uploadingDocument : Document where
  openapi := "3.0.3"
  info := { title := "Pets", description := none, version := "1" }
  servers := []
  paths := .ofEntries
    [("/pets/\x7bid\x7d", { (default : PathItem) with
        parameters := []
        post := some { tagged [] with
          parameters :=
            [.inline ⟨"limit", .query, none, false, none⟩,
             .inline ⟨"trace", .header, none, false, none⟩,
             .inline ⟨"id", .path, none, true, none⟩]
          requestBody := some (.inline ⟨none, .ofEntries
            [("multipart/form-data", { schema := some (.inline
              { Schema.ofType "object" with
                properties := [("photo", .inline
                  { Schema.ofType "string" with format := some "binary" })] }) })], true⟩) } })]
  components := none

/-- A policy that moves and drops arguments, and looks for forms. -/
def arrangingPolicy : ConversionPolicy :=
  { removesParameters := true, detectsMultipart := true, putsPathFirst := true,
    binaryType := some "File" }

/-- An operation with a parameter of the query, of the header and of the path, and with a
file: the one of the header is left out, that of the path moves to the front, and the file
has the type for binary data. -/
theorem toClient_serves_of_uploading :
    ∃ client k,
      uploadingDocument.toClient arrangingPolicy { removes := ["trace", "trace"] } = .ok client
      ∧ uploadingDocument.converter arrangingPolicy { removes := ["trace", "trace"] } = .ok k
      ∧ client.Serves uploadingDocument arrangingPolicy { removes := ["trace", "trace"] } k
      ∧ client.isMultipart = true
      ∧ (client.apis.flatMap (·.calls)).flatMap (fun call =>
          call.arguments.map (fun p => (p.wireName, p.dataType, p.hasMore)))
        = [("id", "kotlin.String", true), ("limit", "kotlin.String", true),
          ("photo", "File", false)] := by
  have hclient : (uploadingDocument.toClient arrangingPolicy
      { removes := ["trace", "trace"] }).toOption.map (fun client =>
        (client.isMultipart, (client.apis.flatMap (·.calls)).flatMap (fun call =>
          call.arguments.map (fun p => (p.wireName, p.dataType, p.hasMore)))))
      = some (true, [("id", "kotlin.String", true), ("limit", "kotlin.String", true),
          ("photo", "File", false)]) := by
    decide +kernel
  obtain ⟨client, h, hfound⟩ := Option.map_eq_some_iff.mp hclient
  obtain ⟨hmultipart, harguments⟩ := Prod.mk.inj hfound
  obtain ⟨k, hk, hserves⟩ := toClient_serves (toOption_eq_some.mp h)
  exact ⟨client, k, toOption_eq_some.mp h, hk, hserves, hmultipart, harguments⟩

end Document

end ClientGen
