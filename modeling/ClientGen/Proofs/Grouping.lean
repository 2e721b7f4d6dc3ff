import ClientGen.Proofs.ClosedWorld
import ClientGen.Proofs.Places
import Mathlib.Data.List.Induction

/-!
# Nothing is lost in a conversion

A document declares operations at paths and schemas under names. Its client has one model for
each schema that is defined inline, and one call for each operation, which stands in the API of
the operation's tag (`Document.toClient_covers`).

The calls are grouped by writing them one after the other into a map of lists. What comes of it
is one list for each tag, in the order in which the tags are first used, with the calls of that
tag in their order (`Conversion.entries_byTag`, by induction on the last call).
-/

namespace ClientGen

/-! ## Grouping by a key

A table of groups is determined by its keys and a function that gives the group of a key.
Writing one more element changes the function at one key, or adds the key, so that the table
keeps this form. -/

section Keys

variable {α : Type} {key : α → String}

/-- A key that is used anew comes last among the keys in use. -/
theorem eraseDups_concat (keys : List String) (k : String) :
    (keys ++ [k]).eraseDups = if k ∈ keys then keys.eraseDups else keys.eraseDups ++ [k] := by
  rw [List.eraseDups_append]
  split_ifs with h
  · simp [List.removeAll, h]
  · simp [List.removeAll, h, List.eraseDups_cons]

/-- The keys in use are distinct. -/
theorem nodup_eraseDups (keys : List String) : keys.eraseDups.Nodup := by
  induction keys using List.reverseRecOn with
  | nil => exact List.nodup_nil
  | append_singleton keys k ih =>
    rw [eraseDups_concat]
    split_ifs with hk
    · exact ih
    · refine List.nodup_append.mpr ⟨ih, List.nodup_singleton k, fun i hi j hj hij => hk ?_⟩
      rw [← List.mem_singleton.mp hj, ← hij]
      exact List.mem_eraseDups.mp hi

/-- Writing one key of a table that is made from distinct keys changes the function at this
key, and the keys stay. -/
theorem Entries.put_map {f : String → α} {keys : List String} {k : String} (h : k ∈ keys)
    (hkeys : keys.Nodup) (value : α) :
    Entries.put (keys.map (fun i => (i, f i))) k value
      = keys.map (fun i => (i, if i = k then value else f i)) := by
  induction keys with
  | nil => cases h
  | cons i keys ih =>
    obtain ⟨hi, hkeys⟩ := List.nodup_cons.mp hkeys
    by_cases hik : i = k
    · subst hik
      have hothers : ∀ j ∈ keys, (j, f j) = (j, if j = i then value else f j) := by
        intro j hj
        have hne : j ≠ i := fun hji => hi (hji ▸ hj)
        rw [if_neg hne]
      rw [List.map_cons, List.map_cons, Entries.put, if_pos rfl, if_pos rfl,
        List.map_congr_left hothers]
    · have hk : k ∈ keys := (List.mem_cons.mp h).resolve_left (Ne.symm hik)
      rw [List.map_cons, List.map_cons, Entries.put, if_neg hik, if_neg hik, ih hk hkeys]

/-- Reading one key of such a table. -/
theorem Entries.find?_map {f : String → α} {keys : List String} (k : String) :
    Entries.find? (keys.map (fun i => (i, f i))) k = if k ∈ keys then some (f k) else none := by
  induction keys with
  | nil => rfl
  | cons i keys ih =>
    rw [List.map_cons, Entries.find?, ih]
    by_cases hik : i = k
    · subst hik
      simp
    · simp [hik, Ne.symm hik]

/-- **The groups of a list make up the list again**, if every key has one. By induction on
the keys: without the first group a list is left that has the other keys only. -/
theorem flatMap_filter_perm {keys : List String} (hkeys : keys.Nodup) {l : List α}
    (h : ∀ a ∈ l, key a ∈ keys) :
    (keys.flatMap (fun k => l.filter (fun a => key a = k))).Perm l := by
  induction keys generalizing l with
  | nil =>
    rw [List.eq_nil_iff_forall_not_mem.mpr (fun a ha => List.not_mem_nil (h a ha))]
    exact List.Perm.refl _
  | cons k keys ih =>
    obtain ⟨hk, hkeys⟩ := List.nodup_cons.mp hkeys
    -- the groups of the other keys are those of what is left without the first group
    have hothers : ∀ k' ∈ keys, l.filter (fun a => key a = k')
        = (l.filter (fun a => !decide (key a = k))).filter (fun a => key a = k') := by
      intro k' hk'
      have hne : k' ≠ k := fun heq => hk (heq ▸ hk')
      rw [List.filter_filter]
      refine List.filter_congr (fun a _ => ?_)
      by_cases ha : key a = k' <;> simp [ha, hne]
    have hrest : ∀ a ∈ l.filter (fun a => !decide (key a = k)), key a ∈ keys := by
      intro a ha
      obtain ⟨ha, hne⟩ := List.mem_filter.mp ha
      exact (List.mem_cons.mp (h a ha)).resolve_left (by simpa using hne)
    rw [List.flatMap_cons, List.flatMap_congr hothers]
    exact ((ih hkeys hrest).append_left _).trans (List.filter_append_perm _ l)

end Keys

namespace Conversion

open Client (Call)

/-- **Calls are grouped by their tags**: there is one list for each tag, in the order in which
the tags are first used, and it has the calls of this tag in their order. -/
theorem entries_byTag (calls : List Call) :
    (byTag calls).entries
      = (calls.map tagOf).eraseDups.map
          (fun tag => (tag, calls.filter (fun call => tagOf call = tag))) := by
  induction calls using List.reverseRecOn with
  | nil => rfl
  | append_singleton calls call ih =>
    -- a tag without a list has no calls
    have hfound : ((byTag calls).find? (tagOf call)).getD []
        = calls.filter (fun c => tagOf c = tagOf call) := by
      rw [OrderedMap.find?, ih, Entries.find?_map]
      split_ifs with hmem
      · rfl
      · refine (List.filter_eq_nil_iff.mpr (fun c hc htag => hmem ?_)).symm
        exact List.mem_eraseDups.mpr (List.mem_map.mpr ⟨c, hc, of_decide_eq_true htag⟩)
    have hgroup : ∀ tag, (calls ++ [call]).filter (fun c => tagOf c = tag)
        = if tag = tagOf call then calls.filter (fun c => tagOf c = tagOf call) ++ [call]
          else calls.filter (fun c => tagOf c = tag) := by
      intro tag
      rw [List.filter_append]
      by_cases htag : tag = tagOf call
      · simp [htag]
      · simp [htag, Ne.symm htag]
    have hstep : (byTag (calls ++ [call])).entries
        = (byTag calls).entries.put (tagOf call)
            (calls.filter (fun c => tagOf c = tagOf call) ++ [call]) := by
      rw [← hfound]
      unfold byTag
      rw [List.foldl_append]
      rfl
    rw [hstep, ih, List.map_append, List.map_singleton, eraseDups_concat]
    simp only [hgroup]
    by_cases hmem : tagOf call ∈ calls.map tagOf
    · rw [if_pos hmem, Entries.put_map (List.mem_eraseDups.mpr hmem) (nodup_eraseDups _)]
    · have hnew : tagOf call ∉ (calls.map tagOf).eraseDups := fun h =>
        hmem (List.mem_eraseDups.mp h)
      have hothers : ∀ tag ∈ (calls.map tagOf).eraseDups, tag ≠ tagOf call :=
        fun tag htag heq => hnew (heq ▸ htag)
      rw [if_neg hmem, List.map_append, List.map_singleton, if_pos rfl, Entries.put_of_notMem]
      · refine congrArg (· ++ _) (List.map_congr_left (fun tag htag => ?_))
        rw [if_neg (hothers tag htag)]
      · simpa [Entries.keys, Function.comp_def] using hnew

end Conversion

/-! ## The operations that a document declares

The program goes through paths and methods and collects calls on the way. Here the
operations are listed first, as the document has them, and the calls are compared with this
list one by one. -/

/-- **An operation as it is declared**: at a path, for a method, with the parameters that the
path shares among its operations. -/
structure DeclaredOperation where
  path : String
  method : Method
  operation : Operation
  shared : List (RefOr Parameter)

namespace DeclaredOperation

/-- The tag that the operation is listed under. -/
def tag (o : DeclaredOperation) : String := o.operation.tags.headD Conversion.defaultTag

/-- What a converter makes of the operation. -/
def call (o : DeclaredOperation) (k : Converter) : Except ReferenceError Client.Call :=
  k.operation o.method.name o.path o.operation o.shared

end DeclaredOperation

/-- **The declared operations of a document**, by path and then by method. -/
def Document.declared (d : Document) : List DeclaredOperation :=
  d.paths.entries.flatMap (fun e => Method.all.filterMap (fun method =>
    (e.2.operation? method).map (fun operation =>
      { path := e.1, method, operation, shared := e.2.parameters })))

namespace Converter

variable {k : Converter} {method path : String} {op : Operation} {shared : List (RefOr Parameter)}
variable {call : Client.Call}

/-- **What an operation is made from**: each part of it is a computation that may fail, and
the call is put together from what they give. -/
theorem operation_eq_ok (h : k.operation method path op shared = .ok call) :
    ∃ declared body fromBody response, k.declaredParameters shared op.parameters = .ok declared
      ∧ k.requestBody? op = .ok body
      ∧ (match body with
        | some body => k.bodyParameters body
        | none => .ok []) = .ok fromBody
      ∧ k.successResponse? op = .ok response
      ∧ call = {
          id := op.operationId.getD (Naming.routeName method path)
          nickname := Naming.variableName (op.operationId.getD (Naming.routeName method path))
          method := Text.upperCase method
          path
          summary := op.summary
          notes := op.description
          tags := op.tags
          arguments := Client.Argument.markFollowed (declared.map k.parameter ++ fromBody)
          consumes := (body.map (fun b => mediaTypes b.content)).getD []
          produces := (response.map (fun r => mediaTypes r.content)).getD []
          hasConsumes := !((body.map (fun b => mediaTypes b.content)).getD []).isEmpty
          returnType := response.bind k.returnType
          isDeprecated := op.deprecated.getD false } := by
  unfold operation at h
  obtain ⟨declared, hdeclared, h⟩ := except_bind_eq_ok.mp h
  obtain ⟨body, hbody, h⟩ := except_bind_eq_ok.mp h
  cases body with
  | none =>
    obtain ⟨fromBody, hfromBody, h⟩ := except_bind_eq_ok.mp h
    obtain ⟨response, hresponse, h⟩ := except_bind_eq_ok.mp h
    cases h
    exact ⟨declared, none, fromBody, response, hdeclared, hbody, hfromBody, hresponse, rfl⟩
  | some b =>
    obtain ⟨fromBody, hfromBody, h⟩ := except_bind_eq_ok.mp h
    obtain ⟨response, hresponse, h⟩ := except_bind_eq_ok.mp h
    cases h
    exact ⟨declared, some b, fromBody, response, hdeclared, hbody, hfromBody, hresponse, rfl⟩

end Converter

/-- The operations of one path. -/
theorem PathItem.operations_map (item : PathItem) (path : String) :
    item.operations.map (fun o => DeclaredOperation.mk path o.1 o.2 item.parameters)
      = Method.all.filterMap (fun method => (item.operation? method).map (fun operation =>
          { path, method, operation, shared := item.parameters })) := by
  unfold operations
  rw [List.map_filterMap]
  refine List.filterMap_congr (fun method _ => ?_)
  rw [Option.map_map]
  rfl

namespace Conversion

/-- **The operations of a client are those that the document declares**, one for each. -/
theorem forall₂_of_operations {k : Converter} {d : Document} {calls : List Client.Call}
    (h : operations k d.paths = .ok calls) :
    List.Forall₂ (fun o call => o.call k = .ok call) d.declared calls := by
  obtain ⟨perPath, hperPath, hcalls⟩ := except_bind_eq_ok.mp h
  obtain rfl : perPath.flatten = calls := Except.ok.inj hcalls
  replace hperPath := except_mapM_eq_ok.mp hperPath
  clear h hcalls
  unfold Document.declared
  generalize d.paths.entries = es at hperPath
  induction hperPath with
  | nil => exact .nil
  | cons hcalls _ ih =>
    rw [List.flatMap_cons, List.flatten_cons, ← PathItem.operations_map]
    exact List.rel_append (List.forall₂_map_left_iff.mpr (except_mapM_eq_ok.mp hcalls)) ih

/-- The tag of a call is that of the operation it is made from. -/
theorem tagOf_of_call {k : Converter} {o : DeclaredOperation} {call : Client.Call}
    (h : o.call k = .ok call) : tagOf call = o.tag := by
  obtain ⟨-, -, -, -, -, -, -, -, rfl⟩ := Converter.operation_eq_ok h
  rfl

/-- The calls of a list of operations have the tags of these operations. -/
theorem map_tagOf {k : Converter} {os : List DeclaredOperation} {calls : List Client.Call}
    (h : List.Forall₂ (fun o call => o.call k = .ok call) os calls) :
    calls.map tagOf = os.map (·.tag) := by
  induction h with
  | nil => rfl
  | cons hcall _ ih => rw [List.map_cons, List.map_cons, ih, tagOf_of_call hcall]

end Conversion

open Conversion

/-- **The APIs of a client**: one for each tag in use, with the calls that are made from the
operations of this tag. -/
theorem Document.toClient_apis {d : Document} {policy : ConversionPolicy}
    {options : ConversionOptions} {client : Client} (h : d.toClient policy options = .ok client) :
    ∃ k calls, d.converter policy options = .ok k
      ∧ List.Forall₂ (fun o call => o.call k = .ok call) d.declared calls
      ∧ client.apis = (d.declared.map (·.tag)).eraseDups.map (fun tag =>
          (apiAdjustment policy options).apply
            { tag, className := options.style.api tag,
              calls := calls.filter (fun call => tagOf call = tag) }) := by
  obtain ⟨k, calls, hk, hcalls, -, hapis⟩ := toClient_eq_ok h
  replace hcalls := forall₂_of_operations hcalls
  refine ⟨k, calls, hk, hcalls, ?_⟩
  rw [hapis, apis, entries_byTag, map_tagOf hcalls, List.map_map]
  rfl

/-- The class of an API is named for its tag. -/
theorem Document.className_of_mem_apis {d : Document} {policy : ConversionPolicy}
    {options : ConversionOptions} {client : Client} (h : d.toClient policy options = .ok client)
    {api : Client.Api} (hapi : api ∈ client.apis) : api.className = options.style.api api.tag := by
  obtain ⟨_, _, -, -, hapis⟩ := toClient_apis h
  rw [hapis] at hapi
  obtain ⟨tag, -, rfl⟩ := List.mem_map.mp hapi
  rfl

/-! ## What becomes of declared operations and schemas

The statement about a call leaves out its arguments and its types, which are another matter:
it says only which operation the call is for. -/

namespace Client

/-- A path that begins with a slash loses it. -/
theorem withoutLeadingSlash_append (rest : String) : withoutLeadingSlash ("/" ++ rest) = rest := by
  unfold withoutLeadingSlash
  rw [String.toList_append]
  exact String.ofList_toList

/-- Any other path stays. -/
theorem withoutLeadingSlash_of_not {path : String} (h : ¬ Text.startsWith path "/") :
    withoutLeadingSlash path = path := by
  unfold withoutLeadingSlash
  split
  · next cs hcs =>
    refine absurd ?_ h
    rw [Text.startsWith, hcs]
    rfl
  · rfl

end Client

/-- **A call is that of a declared operation**: it has its name, its method, its tags, and its
path, from which one leading slash may be stripped. -/
structure DeclaredOperation.IsCalled (strips : Bool) (o : DeclaredOperation) (call : Client.Call) :
    Prop where
  id : call.id = o.operation.operationId.getD (Naming.routeName o.method.name o.path)
  method : call.method = o.method.name
  path : if strips ∧ Text.startsWith o.path "/" then o.path = "/" ++ call.path
    else call.path = o.path
  tags : call.tags = o.operation.tags

/-- An adjusted call is still that of the operation. -/
theorem DeclaredOperation.isCalled_of_call {k : Converter} {o : DeclaredOperation}
    {call : Client.Call} (a : Client.ApiAdjustment) (h : o.call k = .ok call) :
    o.IsCalled a.stripsLeadingSlash (a.call call) := by
  obtain ⟨-, -, -, -, -, -, -, -, rfl⟩ := Converter.operation_eq_ok h
  refine ⟨rfl, ?_, ?_, rfl⟩
  · show Text.upperCase o.method.name = o.method.name
    cases o.method <;> decide
  · show if _ then o.path = "/" ++ (if _ then Client.withoutLeadingSlash o.path else o.path)
      else (if _ then Client.withoutLeadingSlash o.path else o.path) = o.path
    by_cases hstrips : a.stripsLeadingSlash = true
    · by_cases hslash : Text.startsWith o.path "/" = true
      · obtain ⟨rest, hrest⟩ := Path.isAbsolute_iff.mp hslash
        rw [if_pos ⟨hstrips, hslash⟩, if_pos hstrips, hrest, Client.withoutLeadingSlash_append]
      · rw [if_neg (fun h => hslash h.2), if_pos hstrips, Client.withoutLeadingSlash_of_not hslash]
    · rw [if_neg (fun h => hstrips h.1), if_neg hstrips]

/-- **A client covers a document**: it has all that the document declares, in its order and once
only. `strips` says whether leading slashes are stripped. -/
structure Client.Covers (client : Client) (d : Document) (style : Naming.Style) (strips : Bool) :
    Prop where
  /-- The names of the models are distinct. -/
  distinctNames : (client.models.map (·.name)).Nodup
  /-- There is one model for each schema that is defined inline. -/
  models : client.models.map (fun m => (m.name, m.className))
    = d.componentsOrNone.inlineNames.map (fun name => (name, style.model name))
  /-- The tags of the APIs are distinct. -/
  distinctTags : (client.apis.map (·.tag)).Nodup
  /-- There is one API for each tag in use, in the order of first use. -/
  tags : client.apis.map (·.tag) = (d.declared.map (·.tag)).eraseDups
  /-- There is one call for each operation. It stands in the API of its tag and in no other, and
  the order of the calls there is that of the operations. -/
  calls : ∃ calls, List.Forall₂ (DeclaredOperation.IsCalled strips) d.declared calls
    ∧ (client.apis.flatMap (·.calls)).Perm calls
    ∧ ∀ api ∈ client.apis, api.calls = calls.filter (fun call => tagOf call = api.tag)

namespace Document

variable {d : Document} {policy : ConversionPolicy} {options : ConversionOptions} {client : Client}

/-- **Nothing is lost in a conversion, and nothing is made twice.** For schemas this is a
list of names; for operations it is that the groups of the calls make up all of them again.

Schemas that are references have no model and are not counted among those declared: what
they stand for is declared under its own name. -/
theorem toClient_covers (h : d.toClient policy options = .ok client) :
    client.Covers d options.style policy.stripsLeadingSlash := by
  obtain ⟨k, given, -, hgiven, hapis⟩ := toClient_apis h
  have hmodels := toClient_names h
  have hnames : client.models.map (·.name) = d.componentsOrNone.inlineNames := by
    have hfst := congrArg (List.map Prod.fst) hmodels
    rw [List.map_map, List.map_map] at hfst
    exact hfst.trans (List.map_id _)
  let a := apiAdjustment policy options
  have htags : client.apis.map (·.tag) = (d.declared.map (·.tag)).eraseDups := by
    rw [hapis, List.map_map]
    exact List.map_id _
  -- adjusting the calls of an API is the same as taking its tag among the adjusted calls
  have hgroup : ∀ tag, (given.filter (fun call => tagOf call = tag)).map a.call
      = (given.map a.call).filter (fun call => tagOf call = tag) := by
    intro tag
    rw [List.filter_map]
    rfl
  refine ⟨hnames ▸ Components.nodup_inlineNames _, hmodels, htags ▸ nodup_eraseDups _, htags,
    given.map a.call, ?_, ?_, ?_⟩
  · exact List.forall₂_map_right_iff.mpr
      (hgiven.imp (fun _ _ hcall => DeclaredOperation.isCalled_of_call a hcall))
  · have hall : ∀ call ∈ given.map a.call, tagOf call ∈ (d.declared.map (·.tag)).eraseDups := by
      intro call hcall
      obtain ⟨g, hg, rfl⟩ := List.mem_map.mp hcall
      rw [List.mem_eraseDups, ← map_tagOf hgiven]
      exact List.mem_map.mpr ⟨g, hg, rfl⟩
    rw [hapis, List.flatMap_map]
    show (((d.declared.map (·.tag)).eraseDups.flatMap
      (fun tag => (given.filter (fun call => tagOf call = tag)).map a.call))).Perm _
    simp only [hgroup]
    exact flatMap_filter_perm (nodup_eraseDups _) hall
  · intro api hapi
    rw [hapis] at hapi
    obtain ⟨tag, -, rfl⟩ := List.mem_map.mp hapi
    exact hgroup tag

/-- An operation with tags and nothing else. -/
def tagged (tags : List String) : Operation where
  operationId := none
  summary := none
  description := none
  tags
  parameters := []
  requestBody := none
  responses := {}
  deprecated := none

/-- A document whose operations have a tag, none, and the one that stands for none. -/
def mixedDocument : Document where
  openapi := "3.0.3"
  info := { title := "Pets", description := none, version := "1" }
  servers := []
  paths := .ofEntries
    [("/pets", { (default : PathItem) with
        parameters := [], post := some (tagged []), get := some (tagged ["pets", "default"]) }),
     ("/shops", { (default : PathItem) with
        parameters := [], get := some (tagged ["default"]), delete := some (tagged ["pets"]) })]
  components := some
    { schemas := .ofEntries
        [("pet", .inline (.ofType "object")), ("animal", .ref "#/components/schemas/pet")] }

/-- Operations with and without tags: those without one share an API with those that are
tagged `default`. -/
theorem toClient_covers_of_mixed :
    ∃ client, mixedDocument.toClient { stripsLeadingSlash := true } {} = .ok client
      ∧ client.Covers mixedDocument {} true
      ∧ client.apis.map (fun api => (api.tag, api.calls.map (fun call => (call.method, call.path))))
        = [("pets", [("GET", "pets"), ("DELETE", "shops")]),
           ("default", [("POST", "pets"), ("GET", "shops")])] := by
  have hclient : (mixedDocument.toClient { stripsLeadingSlash := true } {}).toOption.map
      (fun client => client.apis.map (fun api =>
        (api.tag, api.calls.map (fun call => (call.method, call.path)))))
      = some [("pets", [("GET", "pets"), ("DELETE", "shops")]),
          ("default", [("POST", "pets"), ("GET", "shops")])] := by
    decide +kernel
  obtain ⟨client, h, hapis⟩ := Option.map_eq_some_iff.mp hclient
  exact ⟨client, toOption_eq_some.mp h, toClient_covers (toOption_eq_some.mp h), hapis⟩

end Document

end ClientGen
