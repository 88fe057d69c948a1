import ObjectStore.Proofs.Loading.Changes
import ObjectStore.Proofs.Storing.Naming
import ObjectStore.Proofs.Traversal.Order

/-!
# What a store operation writes

A store operation that succeeds has written one record for every instance
that the roots lead to, and no other. The identifiers in the records are
those the instances have in the end, although some of them were assigned
while the records were written. Every instance that got an identifier has
been written, so what a record refers to has a record as well.

## Main results

* `storeObjects_ok`: what a store operation that succeeds has written.
* `storeObjects_error`: one that fails leaves the identifiers as they were.
-/

namespace ObjectStore

namespace Storing

variable {ι : Type} [Instance ι] {registry : Registry ι} {g : Graph ι} {s s' : State} {ref : Ref}
  {refs : List Ref}

/-! ## Single instances -/

/-- The instance `x` at the position `ref` is written as the record `r`. -/
structure Saved (registry : Registry ι) (g : Graph ι) (ids : ObjectIds) (ref : Ref)
    (h : ObjectHandler ι) (d : ObjectHandler.Derived ι) (x : ι) (r : Record) : Prop where
  get : g.get? ref = some x
  handler : registry.handlerFor? (Instance.runtimeType x) = some (.object h)
  derived : h.derived = .ok d
  typed : Instance.runtimeType x = h.runtime
  object : ids.objectId? ref = some r.object
  record : r = h.recordOf d ids.nameOf r.object x
  acceptable : Chunk.Acceptable r
  named : ∀ f ∈ d.fields, ∀ target ∈ f.payload.held x, (ids.objectId? target).isSome = true

/-- The record of an instance, whatever its handler is. -/
def Writes (registry : Registry ι) (g : Graph ι) (ids : ObjectIds) (ref : Ref) (r : Record) :
    Prop := ∃ h d x, Saved registry g ids ref h d x r

/-- The positions that the instance at a position refers to. -/
def leads (registry : Registry ι) (g : Graph ι) (ref : Ref) : List Ref :=
  match g.references registry ref with
  | .ok next => next
  | .error _ => []

theorem Saved.references {ids : ObjectIds} {h : ObjectHandler ι} {d : ObjectHandler.Derived ι}
    {x : ι} {r : Record} (hSaved : Saved registry g ids ref h d x r) :
    g.references registry ref = .ok (d.fields.flatMap fun f => f.payload.held x) := by
  have hGet : g.get ref = .ok x := by simp only [Graph.get, hSaved.get]
  have hHandler : g.handler registry ref = .ok (.object h) := by
    simp only [Graph.handler, Graph.runtimeType, hGet, Except.map, bind, Except.bind,
      hSaved.handler]
    rfl
  simp only [Graph.references, hHandler, hGet, bind, Except.bind, Handler.instanceReferences]
  exact ObjectHandler.instanceReferences_of_typed hSaved.derived hSaved.typed

/-- Later identifiers give the same record. -/
theorem Saved.grow {ids ids' : ObjectIds} {bound : List ObjectId} {h : ObjectHandler ι}
    {d : ObjectHandler.Derived ι} {x : ι} {r : Record} (hIds : ids.WellFormed)
    (hSaved : Saved registry g ids ref h d x r) (hGrows : ids.Grows bound ids') :
    Saved registry g ids' ref h d x r where
  get := hSaved.get
  handler := hSaved.handler
  derived := hSaved.derived
  typed := hSaved.typed
  object := hGrows.objectId? hIds hSaved.object
  record := by
    have hParts : ObjectHandler.parts d ids.nameOf x = ObjectHandler.parts d ids'.nameOf x := by
      apply ObjectHandler.parts_congr
      intro f hf target hTarget
      exact (hGrows.nameOf hIds (hSaved.named f hf target hTarget)).symm
    rw [hSaved.record]
    simp only [ObjectHandler.recordOf, ObjectHandler.content, hParts]
  acceptable := hSaved.acceptable
  named := by
    intro f hf target hTarget
    obtain ⟨id, hId⟩ := Option.isSome_iff_exists.1 (hSaved.named f hf target hTarget)
    rw [hGrows.objectId? hIds hId]
    rfl

theorem storeInstance_ok (hIds : s.ids.WellFormed)
    (hStore : (storeInstance registry g ref).start s = (.ok (), s')) :
    ∃ r, Writes registry g s'.ids ref r ∧ Names s (ref :: leads registry g ref) s' ∧
      s'.records = s.records.push r.encode := by
  obtain ⟨handler, s₁, hHandler, hStore⟩ := Attempt.start_bind_ok.1 hStore
  obtain ⟨hFound, rfl⟩ := Prod.mk.inj hHandler
  obtain ⟨object, s₂, hIdentify, hStore⟩ := Attempt.start_bind_ok.1 hStore
  obtain ⟨x, s₃, hGet, hStore⟩ := Attempt.start_bind_ok.1 hStore
  obtain ⟨hx, rfl⟩ := Prod.mk.inj hGet
  obtain ⟨bytes, s₄, hWrite, hStore⟩ := Attempt.start_bind_ok.1 hStore
  obtain ⟨hNames, hObject, hRecords⟩ := identify_ok hIds hIdentify
  have hPushed : s' = { s₄ with records := s₄.records.push bytes } := by
    have hState := Attempt.start_modify_eq_ok.1 hStore
    cases hState
    rfl
  have hGetSome : g.get? ref = some x := by
    unfold Graph.get at hx
    split at hx
    · cases hx
      assumption
    · cases hx
  have hFor : registry.handlerFor? (Instance.runtimeType x) = some handler := by
    simp only [Graph.handler, Graph.runtimeType, hx, Except.map, bind, Except.bind] at hFound
    split at hFound
    · cases hFound
      assumption
    · cases hFound
  cases handler with
  | placeholder d => cases hWrite
  | object h =>
      obtain ⟨d, hDerived, hTyped, hNamesStore, hBytes, hAcceptable, hRecordsStore⟩ :=
        names_store hNames.grown.wellFormed hWrite
      have hAll := hNames.trans hNamesStore
      have hSaved : Saved registry g s₄.ids ref h d x (h.recordOf d s₄.ids.nameOf object x) := by
        refine ⟨hGetSome, hFor, hDerived, hTyped, ?_, rfl, hAcceptable, ?_⟩
        · obtain ⟨added, -, hGrows⟩ := hNamesStore.grown
          exact hGrows.objectId? hNames.grown.wellFormed hObject
        · intro f hf target hTarget
          exact hNamesStore.named target (List.mem_flatMap.2 ⟨f, hf, hTarget⟩)
      have hLeads : leads registry g ref = d.fields.flatMap fun f => f.payload.held x := by
        simp only [leads, hSaved.references]
      subst hPushed
      refine ⟨_, ⟨h, d, x, hSaved⟩, ?_, ?_⟩
      · rw [hLeads]
        exact ⟨hAll.grown, hAll.named, hAll.only⟩
      · show s₄.records.push bytes = _
        rw [hRecordsStore, hRecords, hBytes]

section

variable {P : State → Prop} (hIdentify : ∀ ref, Attempt.Keeps P (identify ref))
  (hRecords : ∀ s records, P s → P { s with records })

include hIdentify hRecords

/-- What assigning keeps, and what the written records have no part in,
storing an instance keeps. -/
theorem keeps_storeInstance (registry : Registry ι) (g : Graph ι) (ref : Ref) :
    Attempt.Keeps P (storeInstance registry g ref) := by
  refine (Attempt.keeps_lift _).bind fun handler => ?_
  refine (hIdentify ref).bind fun object => ?_
  refine (Attempt.keeps_lift _).bind fun x => ?_
  refine (keeps_store hIdentify handler object x).bind fun record => ?_
  intro s h
  exact hRecords s _ h

end

/-! ## The walk -/

/-- The visitor of a store operation. -/
def visitor (registry : Registry ι) (g : Graph ι) (ref : Ref) (_ : Visit) (s : State) :
    Signal × State :=
  match (storeInstance registry g ref).start s with
  | (.ok (), s) => (.proceed, s)
  | (.error e, s) => (.fail e, s)

theorem visitor_proceeds {treatment : Visit}
    (h : visitor registry g ref treatment s = (.proceed, s')) :
    (storeInstance registry g ref).start s = (.ok (), s') := by
  unfold visitor at h
  split at h
  · rename_i s₁ hStart
    obtain ⟨-, rfl⟩ := Prod.mk.inj h
    exact hStart
  · cases h

theorem visitor_ne_stop (treatment : Visit) (s : State) :
    (visitor registry g ref treatment s).1 ≠ .stop := by
  unfold visitor
  split <;> exact fun h => nomatch h

/-- What has been written after some visits. -/
theorem visits_ok {rules : Rules Ref} (hIds : s.ids.WellFormed)
    (h : Visits rules (visitor registry g) s refs s') :
    ∃ rs named, List.Forall₂ (Writes registry g s'.ids) refs rs ∧ Names s named s' ∧
      (∀ ref ∈ named, ref ∈ refs ∨ ∃ v ∈ refs, ref ∈ leads registry g v) ∧
      s'.records.toList = s.records.toList ++ rs.map Record.encode := by
  induction h with
  | nil s => exact ⟨[], [], List.Forall₂.nil, Names.refl hIds, by simp, by simp⟩
  | @cons ref refs s s₁ s' hVisit _ ih =>
      obtain ⟨r, hWrites, hNames, hRecords⟩ := storeInstance_ok hIds (visitor_proceeds hVisit)
      obtain ⟨rs, named, hRest, hNamesRest, hSource, hRecordsRest⟩ := ih hNames.grown.wellFormed
      obtain ⟨hd, d, x, hSaved⟩ := hWrites
      obtain ⟨added, -, hGrows⟩ := hNamesRest.grown
      refine ⟨r :: rs, _,
        List.Forall₂.cons ⟨hd, d, x, hSaved.grow hNames.grown.wellFormed hGrows⟩ hRest,
        hNames.trans hNamesRest, ?_, ?_⟩
      · intro target hTarget
        rcases List.mem_append.1 hTarget with hIn | hIn
        · rcases List.mem_cons.1 hIn with rfl | hLeads
          · exact Or.inl List.mem_cons_self
          · exact Or.inr ⟨ref, List.mem_cons_self, hLeads⟩
        · rcases hSource target hIn with hOwn | ⟨v, hv, hLeads⟩
          · exact Or.inl (List.mem_cons_of_mem _ hOwn)
          · exact Or.inr ⟨v, List.mem_cons_of_mem _ hv, hLeads⟩
      · rw [hRecordsRest, hRecords]
        simp

/-! ## The whole operation -/

/-- What a store operation has written: the records `rs` of the instances
`visited`. -/
structure Outcome (registry : Registry ι) (g : Graph ι) (roots : List Ref) (ids : ObjectIds)
    (chunk : StoredChunk) (ids' : ObjectIds) (visited : List Ref) (rs : List Record) : Prop where
  reachable : ∀ ref, ref ∈ visited ↔ Reachable (g.network registry) {} roots ref
  nodup : visited.Nodup
  writes : List.Forall₂ (Writes registry g ids') visited rs
  bytes : chunk.bytes = Chunk.join rs
  roots : chunk.roots = roots.map ids'.nameOf
  grows : ∃ added, ids.Grows added ids'
  /-- Every instance that got an identifier has been written. -/
  only : ∀ ref id, ids'.objectId? ref = some id → ids.objectId? ref = some id ∨ ref ∈ visited

theorem identifyRoots_ok {roots : List Ref} {ids : List ObjectId} (hIds : s.ids.WellFormed)
    (h : (roots.mapM (identifyRoot g)).start s = (.ok ids, s')) :
    Names s roots s' ∧ ids = roots.map s'.ids.nameOf ∧ s'.records = s.records := by
  have hIdentify : (roots.mapM identify).start s = (.ok ids, s') := by
    induction roots generalizing s ids with
    | nil => exact h
    | cons root rest ih =>
        obtain ⟨id, restIds, s₁, hHead, hRest, rfl⟩ := Attempt.start_mapM_cons_ok.1 h
        obtain ⟨runtime, s₂, hType, hHead⟩ := Attempt.start_bind_ok.1 hHead
        obtain ⟨-, rfl⟩ := Prod.mk.inj hType
        have hWellFormed := (identify_ok hIds hHead).1.grown.wellFormed
        exact Attempt.start_mapM_cons_ok.2 ⟨id, restIds, s₁, hHead, ih hWellFormed hRest, rfl⟩
  exact mapM_identify_ok hIds hIdentify

section

variable {P : State → Prop} (hIdentify : ∀ ref, Attempt.Keeps P (identify ref))

include hIdentify

theorem keeps_identifyRoot (g : Graph ι) (root : Ref) : Attempt.Keeps P (identifyRoot g root) :=
  (Attempt.keeps_lift _).bind fun _ => hIdentify root

variable (hRecords : ∀ s records, P s → P { s with records })

include hRecords

theorem keeps_visitor (ref : Ref) (treatment : Visit) (s : State) (h : P s) :
    P (visitor registry g ref treatment s).2 := by
  have hKeeps := keeps_storeInstance hIdentify hRecords registry g ref s h
  unfold visitor
  split
  · rename_i s₁ hStart
    rwa [hStart] at hKeeps
  · rename_i e s₁ hStart
    rwa [hStart] at hKeeps

/-- What assigning keeps, and what the written records have no part in, a
whole store operation keeps, also if it fails. -/
theorem keeps_storeReachable (registry : Registry ι) (g : Graph ι) (roots : List Ref) :
    Attempt.Keeps P (storeReachable registry g roots) := by
  refine (Attempt.keeps_mapM fun root _ => keeps_identifyRoot hIdentify g root).bind
    fun rootIds => ?_
  intro s h
  have hWalk : P (Walk.run (g.network registry) {} roots (visitor registry g) s).state :=
    Walk.run_keeps (keeps_visitor hIdentify hRecords) h
  rw [Attempt.start_of]
  dsimp only
  split
  · exact hWalk
  · exact hWalk

end

end Storing

open Storing

variable {ι : Type} [Instance ι] {registry : Registry ι} {g : Graph ι} {ids ids' : ObjectIds}
  {roots : List Ref}

/-- What a store operation consists of that has succeeded: the identifiers of
the roots, and the visits of a breadth-first order. -/
theorem storeObjects_visits {chunk : StoredChunk}
    (h : (storeObjects registry g roots).start ids = (.ok chunk, ids')) :
    ∃ s s' visited,
      (roots.mapM (identifyRoot g)).start ⟨ids, [], #[]⟩ = (.ok chunk.roots, s) ∧
      BreadthFirst (g.network registry) {} roots visited ∧
      Visits {} (visitor registry g) s visited s' ∧
      (∀ ref ∈ visited, ∃ next, g.references registry ref = .ok next) ∧
      chunk = ⟨s'.records.toList.flatten, chunk.roots, s'.records.size⟩ ∧ ids' = s'.ids := by
  simp only [storeObjects, Attempt.start_of] at h
  split at h
  · rename_i chunk' s' hStore
    obtain ⟨hChunk, rfl⟩ := Prod.mk.inj h
    cases hChunk
    obtain ⟨rootIds, s, hRoots, hWalk⟩ := Attempt.start_bind_ok.1 hStore
    rw [Attempt.start_of] at hWalk
    dsimp only at hWalk
    split at hWalk
    · cases hWalk
    · rename_i summary hResult
      have hRun : (Walk.run (g.network registry) {} roots (visitor registry g) s).result =
          .ok summary := hResult
      obtain ⟨visited, -, hOrder, hVisits, hNext⟩ :=
        Walk.run_ok (fun ref treatment s => visitor_ne_stop treatment s) hRun
      obtain ⟨hChunk, hState⟩ := Prod.mk.inj hWalk
      cases hChunk
      cases hState
      exact ⟨s, _, visited, hRoots, hOrder, hVisits, fun ref hRef => hNext ref hRef rfl, rfl, rfl⟩
  · cases h

/-- A store operation that succeeds has written exactly the instances that
the roots lead to, breadth-first, and has counted the records. -/
theorem storeObjects_written {chunk : StoredChunk} (hIds : ids.WellFormed)
    (h : (storeObjects registry g roots).start ids = (.ok chunk, ids')) :
    ∃ visited rs, Outcome registry g roots ids chunk ids' visited rs ∧
      BreadthFirst (g.network registry) {} roots visited ∧ chunk.count = rs.length := by
  obtain ⟨s, s', visited, hRoots, hOrder, hVisits, hNext, hChunk, rfl⟩ := storeObjects_visits h
  obtain ⟨hNamesRoots, hRootIds, hNone⟩ := identifyRoots_ok (s := ⟨ids, [], #[]⟩) hIds hRoots
  obtain ⟨rs, named, hWrites, hNames, hSource, hRecords⟩ :=
    visits_ok hNamesRoots.grown.wellFormed hVisits
  have hList : s'.records.toList = rs.map Record.encode := by
    rw [hRecords, hNone]
    rfl
  have hCount : chunk.count = rs.length := by
    rw [hChunk, ← Array.length_toList, hList, List.length_map]
  have hReachable := hOrder.reachable
  refine ⟨visited, rs, ⟨hReachable, hOrder.nodup, hWrites, ?_, ?_, ?_, ?_⟩, hOrder, hCount⟩
  · rw [hChunk, hList, Chunk.join, List.flatMap_def]
  · rw [hRootIds]
    apply List.map_congr_left
    intro root hRoot
    exact (hNames.grown.nameOf hNamesRoots.grown.wellFormed (hNamesRoots.named root hRoot)).symm
  · obtain ⟨added, -, hGrows⟩ := hNamesRoots.grown.trans hNames.grown
    exact ⟨added, hGrows⟩
  · intro ref id hId
    rcases hNames.only ref id hId with hBefore | hIn
    · rcases hNamesRoots.only ref id hBefore with hBefore | hRoot
      · exact Or.inl hBefore
      · exact Or.inr ((hReachable ref).2 (Reachable.root hRoot rfl))
    · right
      rcases hSource ref hIn with hOwn | ⟨v, hv, hLeads⟩
      · exact hOwn
      · obtain ⟨next, hOk⟩ := hNext v hv
        rw [leads, hOk] at hLeads
        exact (hReachable ref).2 (Reachable.step ((hReachable v).1 hv) rfl hOk hLeads rfl)

theorem storeObjects_breadthFirst {chunk : StoredChunk} (hIds : ids.WellFormed)
    (h : (storeObjects registry g roots).start ids = (.ok chunk, ids')) :
    ∃ visited rs, Outcome registry g roots ids chunk ids' visited rs ∧
      BreadthFirst (g.network registry) {} roots visited := by
  obtain ⟨visited, rs, hOutcome, hOrder, -⟩ := storeObjects_written hIds h
  exact ⟨visited, rs, hOutcome, hOrder⟩

theorem storeObjects_ok {chunk : StoredChunk} (hIds : ids.WellFormed)
    (h : (storeObjects registry g roots).start ids = (.ok chunk, ids')) :
    ∃ visited rs, Outcome registry g roots ids chunk ids' visited rs := by
  obtain ⟨visited, rs, hOutcome, -⟩ := storeObjects_breadthFirst hIds h
  exact ⟨visited, rs, hOutcome⟩

/-- A root that refers to nothing is stored as one record. -/
theorem storeObjects_single {ref : Ref} {id : ObjectId} (assigned : List ObjectId) {r : Record}
    (hRoot : (identifyRoot g ref).start ⟨ids, [], #[]⟩ = (.ok id, ⟨ids', assigned, #[]⟩))
    (hNext : g.references registry ref = .ok [])
    (hStore : (storeInstance registry g ref).start ⟨ids', assigned, #[]⟩ =
      (.ok (), ⟨ids', assigned, #[r.encode]⟩)) :
    (storeObjects registry g [ref]).start ids = (.ok ⟨Chunk.join [r], [id], 1⟩, ids') := by
  have hRoots : ([ref].mapM (identifyRoot g)).start ⟨ids, [], #[]⟩ =
      (.ok [id], ⟨ids', assigned, #[]⟩) :=
    Attempt.start_mapM_cons_ok.2 ⟨id, [], _, hRoot, rfl, rfl⟩
  simp only [storeObjects, Attempt.start_of, storeReachable]
  rw [Attempt.start_bind, hRoots]
  simp only [Attempt.start_of]
  rw [Walk.run_single (t := ⟨ids', assigned, #[r.encode]⟩) (by simp only [hStore]) hNext]
  simp [Chunk.join]

/-- Visits in breadth-first order that all succeed are a store operation that
succeeds. -/
theorem storeObjects_of_visits {s s' : State} {rootIds : List ObjectId} {visited : List Ref}
    (hRoots : (roots.mapM (identifyRoot g)).start ⟨ids, [], #[]⟩ = (.ok rootIds, s))
    (hOrder : BreadthFirst (g.network registry) {} roots visited)
    (hVisits : Visits {} (visitor registry g) s visited s')
    (hNext : ∀ ref ∈ visited, ∃ next, g.references registry ref = .ok next) :
    (storeObjects registry g roots).start ids =
      (.ok ⟨s'.records.toList.flatten, rootIds, s'.records.size⟩, s'.ids) := by
  obtain ⟨hState, total, hResult⟩ :=
    Walk.run_of_visits hOrder hVisits fun ref hRef _ => hNext ref hRef
  have hStore : (storeReachable registry g roots).start ⟨ids, [], #[]⟩ =
      (.ok ⟨s'.records.toList.flatten, rootIds, s'.records.size⟩, s') := by
    refine Attempt.start_bind_ok.2 ⟨rootIds, s, hRoots, ?_⟩
    rw [Attempt.start_of]
    dsimp only
    split
    · rename_i e hError
      cases hResult.symm.trans hError
    · rw [← hState]
      rfl
  simp only [storeObjects, Attempt.start_of, hStore]

/-- A store operation only adds identifiers of instances that had none, and
none at all if it fails. -/
theorem storeObjects_addsNew {result : Except Error StoredChunk} (hIds : ids.Ordered)
    (h : (storeObjects registry g roots).start ids = (result, ids')) :
    (∃ added, ids.AddsNew added ids') ∧ ∀ e, result = .error e → ids' = ids := by
  have hKeeps := keeps_storeReachable (addsNew_identify ids) (fun _ _ h => h) registry g roots
    ⟨ids, [], #[]⟩ (ObjectIds.AddsNew.refl hIds)
  simp only [storeObjects, Attempt.start_of] at h
  split at h
  · rename_i chunk s hStore
    obtain ⟨rfl, rfl⟩ := Prod.mk.inj h
    rw [hStore] at hKeeps
    exact ⟨⟨_, hKeeps⟩, fun e hError => nomatch hError⟩
  · rename_i e s hStore
    obtain ⟨rfl, rfl⟩ := Prod.mk.inj h
    rw [hStore] at hKeeps
    rw [hKeeps.release hIds]
    exact ⟨⟨[], ObjectIds.AddsNew.refl hIds⟩, fun _ _ => rfl⟩

/-- A store operation that fails leaves the identifiers as they were. -/
theorem storeObjects_error {e : Error} (hIds : ids.WellFormed)
    (h : (storeObjects registry g roots).start ids = (.error e, ids')) : ids' = ids :=
  (storeObjects_addsNew hIds.ordered h).2 e rfl

namespace Storing

/-! ## The written records -/

namespace Outcome

variable {chunk : StoredChunk} {visited : List Ref} {rs : List Record} {ref : Ref} {r : Record}

/-- The chunk consists of the records. -/
theorem split (h : Outcome registry g roots ids chunk ids' visited rs) :
    Chunk.split chunk.bytes = ⟨rs, none⟩ := by
  rw [h.bytes]
  apply Chunk.split_join
  intro r hr
  obtain ⟨ref, -, hd, d, x, hSaved⟩ := forall₂_exists_left h.writes hr
  exact hSaved.acceptable

theorem write_of_mem (h : Outcome registry g roots ids chunk ids' visited rs) (hr : r ∈ rs) :
    ∃ ref ∈ visited, Writes registry g ids' ref r := forall₂_exists_left h.writes hr

theorem write_of_visited (h : Outcome registry g roots ids chunk ids' visited rs)
    (hRef : ref ∈ visited) : ∃ r ∈ rs, Writes registry g ids' ref r :=
  forall₂_exists_right h.writes hRef

/-- What a written instance refers to is written as well. -/
theorem closed (h : Outcome registry g roots ids chunk ids' visited rs) (hRef : ref ∈ visited)
    {target : Ref} (hTarget : target ∈ leads registry g ref) : target ∈ visited := by
  obtain ⟨r, -, hd, d, x, hSaved⟩ := h.write_of_visited hRef
  have hNext := hSaved.references
  rw [leads, hNext] at hTarget
  exact (h.reachable target).2
    (Reachable.step ((h.reachable ref).1 hRef) rfl hNext hTarget rfl)

theorem wellFormed (h : Outcome registry g roots ids chunk ids' visited rs) :
    ids'.WellFormed := by
  obtain ⟨added, hGrows⟩ := h.grows
  exact hGrows.wellFormed

theorem within (h : Outcome registry g roots ids chunk ids' visited rs) (hIds : ids.WellFormed)
    (hWithin : ids.Within g.size) : ids'.Within g.size := by
  intro id ref hRef
  rcases h.only ref id ((h.wellFormed.inverse id ref).1 hRef) with hBefore | hVisited
  · exact hWithin id ref ((hIds.inverse id ref).2 hBefore)
  · obtain ⟨r, -, hd, d, x, hSaved⟩ := h.write_of_visited hVisited
    exact Graph.lt_size_of_get? hSaved.get

end Outcome

end Storing

end ObjectStore
