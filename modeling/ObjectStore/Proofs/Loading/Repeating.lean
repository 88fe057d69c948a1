import ObjectStore.Proofs.Handler.Repeating
import ObjectStore.Proofs.Loading.Updating

/-!
# Loading the same once more

A load of records whose objects are all live, and whose instances are what
the records say, succeeds and changes nothing: the identifiers and the number
of instances are the same, and so is every field of every instance.
`Live.Unchanged` says so. This is the case when the same bytes are loaded a
second time. The first load creates some instances and brings others up to
date; the second one brings all of them up to date, or compares those that
cannot be set.

## Main results

* `Loading.loadObjects_upToDate`: a load that finds everything up to date.
* `loadObjects_again`: loading the same bytes twice is loading them once.
-/

namespace ObjectStore

variable {ι : Type} [Instance ι]

/-- The setters of all fields of a registry do nothing when they set what is
there already. -/
def Registry.Quiet (registry : Registry ι) : Prop :=
  ∀ id h, registry.handler? id = some (.object h) → ∀ field ∈ h.fields, field.access.Quiet h.runtime

/-- The live side `after` shows what `before` shows: the same identifiers, the
same number of instances, and in every instance the same runtime type and the
same fields. Only the instances at some positions have been touched at all,
and if the setters are quiet, not even those have changed. -/
structure Live.Unchanged (registry : Registry ι) (touched : List Ref) (before after : Live ι) :
    Prop where
  ids : after.ids = before.ids
  size : after.graph.size = before.graph.size
  untouched : ∀ ref, ref ∉ touched → after.graph.get? ref = before.graph.get? ref
  kept : ∀ ref x, before.graph.get? ref = some x → ∃ y, after.graph.get? ref = some y ∧
    Instance.runtimeType y = Instance.runtimeType x ∧
    ∀ h, registry.handlerFor? (Instance.runtimeType x) = some (.object h) →
      ∀ field ∈ h.fields, field.access.Agrees y x
  same : registry.Quiet → after = before

namespace Loading

variable {registry : Registry ι} {matcher : Option Matcher} {bytes : Bytes} {live live' : Live ι}
  {planned : List (PlannedRecord ι)} {dropped : List ObjectId} {refs : List Ref} {s : State ι}
  {lookup : Lookup}

/-! ## Instances that are up to date -/

/-- The object of a record is live, and its instance is what the record
says. -/
def UpToDate (lookup : Lookup) (g : Graph ι) (p : PlannedRecord ι) (ref : Ref) : Prop :=
  p.existing = some ref ∧ ∃ h d x, p.handler = .object h ∧ g.get? ref = some x ∧
    h.UpToDate lookup p.record d x

omit [Instance ι] in
/-- To place records of live objects changes nothing. -/
theorem start_placeAll_of_existing
    (h : List.Forall₂ (fun p ref => p.existing = some ref) planned refs) :
    (planned.mapM place).start s = (.ok refs, s) := by
  induction h with
  | nil => rfl
  | @cons p ref planned refs hHead _ ih =>
      have hPlace : (place p).start s = (.ok ref, s) := by
        simp only [place, hHead]
        rfl
      exact Attempt.start_mapM_cons_ok.2 ⟨ref, refs, s, hPlace, ih, rfl⟩

/-- To settle the record `q.1` in its instance at `q.2` makes `y` of it, which
shows what the instance `x` has shown. -/
structure Rests (lookup : Lookup) (g : Graph ι) (q : PlannedRecord ι × Ref) (h : ObjectHandler ι)
    (x y : ι) : Prop where
  handler : q.1.handler = .object h
  unhooked : h.onComplete = none
  typed : Instance.runtimeType x = h.runtime
  get : g.get? q.2 = some x
  settled : (settling lookup q).start x = (.ok (), y)
  type : Instance.runtimeType y = Instance.runtimeType x
  agrees : ∀ field ∈ h.fields, field.access.Agrees y x
  same : (∀ field ∈ h.fields, field.access.Quiet h.runtime) → y = x

/-- What becomes of an instance that is up to date. -/
theorem rests_of_upToDate {p : PlannedRecord ι} {ref : Ref} {g : Graph ι}
    (hRegular : ∀ h, p.handler = .object h → h.Regular) (hUp : UpToDate lookup g p ref) :
    ∃ h x y, Rests lookup g (p, ref) h x y := by
  obtain ⟨hExisting, h, d, x, hHandler, hGet, hCurrent⟩ := hUp
  have hReg := hRegular h hHandler
  obtain ⟨y, hRefresh, hType, hAgrees, hSame⟩ := hCurrent.refresh_isOk hReg
  have hSettle : (settling lookup (p, ref)).start x = (.ok (), y) := by
    simp only [settling, hExisting, hHandler, Option.isSome_some, if_true, Handler.refresh]
    exact hRefresh
  exact ⟨h, x, y, hHandler, hReg.unhooked, hCurrent.typed, hGet, hSettle, hType, hAgrees, hSame⟩

/-- Settling instances that are all up to date changes nothing. -/
theorem unchanged_of_rests (hRegistry : registry.WellFormed) {pairs : Pairs ι} {g : Graph ι}
    (hHandler : ∀ q ∈ pairs, registry.handler? q.1.record.type = some q.1.handler)
    (hRests : ∀ q ∈ pairs, ∃ h x y, Rests lookup live.graph q h x y)
    (hChanged : Graph.Changed Prod.snd (settling lookup) pairs live.graph g) :
    live.Unchanged registry (pairs.map Prod.snd) ⟨g, live.ids⟩ := by
  have hOther : ∀ ref, ref ∉ pairs.map Prod.snd → g.get? ref = live.graph.get? ref :=
    fun ref hNot => hChanged.others ref fun q hq hEq => hNot (List.mem_map.2 ⟨q, hq, hEq⟩)
  have hDone : ∀ q ∈ pairs, ∃ h x y, Rests lookup live.graph q h x y ∧ g.get? q.2 = some y := by
    intro q hq
    obtain ⟨h, x, y, hRest⟩ := hRests q hq
    have hSet := hChanged.done q hq x hRest.get
    rw [hRest.settled] at hSet
    exact ⟨h, x, y, hRest, hSet⟩
  refine ⟨rfl, hChanged.size, hOther, ?_, ?_⟩
  · intro ref x hGet
    by_cases hRef : ref ∈ pairs.map Prod.snd
    · obtain ⟨q, hq, rfl⟩ := List.mem_map.1 hRef
      obtain ⟨h, x', y, hRest, hSet⟩ := hDone q hq
      cases hGet.symm.trans hRest.get
      refine ⟨y, hSet, hRest.type, ?_⟩
      intro h' hFor
      have hOwn := hRegistry.handlerFor?_of_handler? (hRest.handler ▸ hHandler q hq) rfl
      rw [hRest.typed, hOwn] at hFor
      cases hFor
      exact hRest.agrees
    · exact ⟨x, (hOther ref hRef).trans hGet, rfl, fun h _ field _ =>
        Access.Agrees.refl field.access x⟩
  · intro hQuiet
    have hGraph : g = live.graph := by
      apply Graph.ext_get?
      intro ref
      by_cases hRef : ref ∈ pairs.map Prod.snd
      · obtain ⟨q, hq, rfl⟩ := List.mem_map.1 hRef
        obtain ⟨h, x, y, hRest, hSet⟩ := hDone q hq
        rw [hSet, hRest.get, hRest.same (hQuiet _ h (hRest.handler ▸ hHandler q hq))]
      · exact hOther ref hRef
    rw [hGraph]

/-- A load that finds all instances up to date succeeds and changes
nothing. -/
theorem loadObjects_upToDate (hRegistry : registry.WellFormed) (hRegular : Regular registry)
    (hLive : live.WellFormed)
    (hPrepare : prepare registry matcher live.ids bytes = .ok (planned, dropped))
    (hUp : List.Forall₂ (UpToDate (resolver live.ids dropped) live.graph) planned refs) :
    ∃ live', (loadObjects registry matcher bytes).start live = (.ok refs, live') ∧
      live.Unchanged registry refs live' := by
  obtain ⟨chunk, -, -, hPlan, -⟩ := prepare_eq_ok hPrepare
  obtain ⟨-, -, hNodup, hChecked⟩ := plan_eq_ok hPlan
  have hPlace := start_placeAll_of_existing (s := ⟨live, []⟩) (hUp.imp fun _ _ h => h.1)
  have hPlaced := placed_placeAll (s := ⟨live, []⟩) hLive
    (fun p hp ref hRef => (hChecked p hp).existing ▸ hRef) hPlace
  have hDistinct := distinct_of_placed hLive.ids hNodup hPlaced
  have hHandler : ∀ p ∈ planned, registry.handler? p.record.type = some p.handler :=
    fun p hp => (hChecked p hp).handler
  have hRests : ∀ q ∈ planned.zip refs, ∃ h x y,
      Rests (resolver live.ids dropped) live.graph q h x y := fun q hq =>
    rests_of_upToDate
      (fun h hObject => hRegular q.1.record.type h (hObject ▸ hHandler q.1 (List.of_mem_zip hq).1))
      ((List.forall₂_iff_zip.1 hUp).2 hq)
  have hAccepts : Graph.Accepts Prod.snd (settling (resolver live.ids dropped))
      (planned.zip refs) live.graph := by
    intro q hq
    obtain ⟨h, x, y, hRest⟩ := hRests q hq
    exact ⟨x, hRest.get, congrArg Prod.fst hRest.settled⟩
  have hUnhooked : ∀ p ∈ planned, ∃ h, p.handler = .object h ∧ h.onComplete = none := by
    intro p hp
    obtain ⟨ref, -, -, h, d, x, hObject, -⟩ := forall₂_exists_right hUp hp
    exact ⟨h, hObject, (hRegular p.record.type h (hObject ▸ hHandler p hp)).unhooked⟩
  obtain ⟨g, hChanged, hApply⟩ := apply_isOk hPlace hDistinct hUnhooked hAccepts
  have hUnchanged := unchanged_of_rests hRegistry
    (fun q hq => hHandler q.1 (List.of_mem_zip hq).1) hRests hChanged
  rw [(placed_zip hPlaced).2.1] at hUnchanged
  exact ⟨⟨g, live.ids⟩, loadObjects_eq_ok.2 ⟨planned, dropped, _, hPrepare, hApply, rfl⟩,
    hUnchanged⟩

/-! ## After a load -/

/-- All types of a registry without settable fields construct their instances
with the values of the records. -/
def Reproduces (registry : Registry ι) : Prop :=
  ∀ id h, registry.handler? id = some (.object h) → h.Frozen → h.Reproduces

/-- What a load has left is up to date with the records that it has loaded. -/
theorem Performed.upToDate {before after : Live ι} {g : Graph ι}
    (h : Performed registry before planned dropped refs s g after) (hRegular : Regular registry)
    (hReproduces : Reproduces registry) :
    List.Forall₂ (UpToDate (resolver after.ids dropped) after.graph)
      (planned.map (replan after.ids)) refs := by
  rw [List.forall₂_map_left_iff]
  refine List.forall₂_iff_zip.2 ⟨h.placed.length_eq, ?_⟩
  intro p ref hPair
  have hp := (List.of_mem_zip hPair).1
  have hOwn : ∀ hd, p.handler = .object hd → registry.handler? p.record.type = some (.object hd) :=
    fun hd hHandler => h.handler hp hHandler
  obtain ⟨x, y, -, hGet, hSettle, hCreated⟩ := h.settling_of_mem hPair
  obtain ⟨hd, -, hHandler, -⟩ :=
    settling_regular (fun hd hHandler => hRegular _ hd (hOwn hd hHandler)) hCreated hSettle
  have hReg := hRegular _ hd (hOwn hd hHandler)
  have hFinal := h.get?_of_unhooked hPair hHandler hReg.unhooked hGet
  refine ⟨List.forall₂_zip h.bound hPair, hd, ?_⟩
  simp only [settling, hHandler] at hSettle
  split at hSettle
  · obtain ⟨d, hUp⟩ := ObjectHandler.upToDate_of_refresh hReg hSettle
    exact ⟨d, y, hHandler, hFinal, hUp⟩
  · rename_i hNew
    have hCreate := hCreated (by simpa using hNew)
    rw [hHandler] at hCreate
    obtain ⟨d, hUp⟩ := ObjectHandler.upToDate_of_connect hReg
      (hReproduces _ hd (hOwn hd hHandler)) hCreate hSettle
    exact ⟨d, y, hHandler, hFinal, hUp⟩

end Loading

open Loading

/-- To load the same bytes again succeeds, returns the same instances and
changes nothing. -/
theorem loadObjects_again (registrations : List (Registration ι)) (matcher : Option Matcher)
    (bytes : Bytes) (live : Live ι) (refs : List Ref) (live' : Live ι)
    (hRegular : Regular (Registry.build registrations))
    (hReproduces : Reproduces (Registry.build registrations)) (hLive : live.WellFormed)
    (h : (loadObjects (Registry.build registrations) matcher bytes).start live =
      (.ok refs, live')) :
    ∃ live'', (loadObjects (Registry.build registrations) matcher bytes).start live' =
        (.ok refs, live'') ∧
      live'.Unchanged (Registry.build registrations) refs live'' := by
  obtain ⟨planned, dropped, s, g, hPrepare, hPerformed⟩ := performed_of_loadObjects hLive h
  exact loadObjects_upToDate (Registry.wellFormed_build registrations) hRegular
    hPerformed.wellFormed (prepare_again hPrepare live'.ids)
    (hPerformed.upToDate hRegular hReproduces)

/-! ## Coins -/

namespace Slots

/-- Coins, whose worth is known when they are made and cannot be changed. -/
def coin : ObjectHandler Slots where
  id := ⟨1001⟩
  name := "Coin"
  runtime := ⟨"Coin"⟩
  construction := .fromValues fun values => do
    let worth ← values.value .u32 "worth"
    return (blank ⟨"Coin"⟩).set "worth" (.code (PrimitiveKind.code .u32 worth))
  fields := [⟨MemberId.unqualified "worth", none, access "worth" false (.primitive .u32)⟩]
  onComplete := none

/-- The registrations of people and coins. -/
def purse : List (Registration Slots) := [.handler ⟨0, .object person⟩, .handler ⟨0, .object coin⟩]

theorem handler_purse {id : TypeId} {h : ObjectHandler Slots}
    (hHandler : (Registry.build purse).handler? id = some (.object h)) : h = person ∨ h = coin := by
  have hAll : (Registry.build purse).allHandlers = [.object person, .object coin] := rfl
  have hIn := Registry.mem_allHandlers hHandler
  rw [hAll] at hIn
  simpa using hIn

theorem regular_coin : coin.Regular := by
  refine @regular_of_slots coin [("worth", false, .primitive .u32)] rfl (by decide) ?_ rfl
  intro values x hConstruct
  obtain ⟨v, -, hDone⟩ := bind_eq_ok.1 hConstruct
  cases hDone
  rfl

theorem regular_purse : Regular (Registry.build purse) := by
  intro id h hHandler
  rcases handler_purse hHandler with rfl | rfl
  · exact lawful_person.toRegular
  · exact regular_coin

/-- A coin is worth what its record says. -/
theorem reproduces_coin : coin.Reproduces := by
  obtain ⟨layout, definition, hDerived, hMembers⟩ : ∃ layout definition, coin.derived = .ok
      ⟨[⟨⟨MemberId.unqualified "worth", .primitive .u32, "u32", some 0⟩, false,
        access "worth" false (.primitive .u32)⟩], layout, definition⟩ ∧
      definition.members = [⟨MemberId.unqualified "worth", .primitive .u32, "u32", some 0⟩] :=
    ⟨_, _, rfl, rfl⟩
  refine ⟨by decide, ?_⟩
  intro d r x hOwn hYields lookup f hf
  rw [hDerived] at hOwn
  cases hOwn
  cases List.mem_singleton.1 hf
  obtain ⟨v, hValue, hDone⟩ := bind_eq_ok.1 hYields
  cases hDone
  obtain ⟨offset, hMember, hValue⟩ := bind_eq_ok.1 hValue
  obtain ⟨bytes, hSlice, hDecode⟩ := bind_eq_ok.1 hValue
  rw [hMembers] at hMember
  cases hMember
  refine ⟨0, rfl, bytes, Access.orCorrupt_eq_ok.1 hSlice, ?_⟩
  rw [Access.orCorrupt_eq_ok.1 hDecode]
  have hGetsBack : (access "worth" true (.primitive .u32)).GetsBack ⟨"Coin"⟩ :=
    getsBack_access "worth" true (.primitive .u32)
  exact congrArg Except.ok (hGetsBack _ rfl v _ rfl).symm

theorem reproduces_purse : Reproduces (Registry.build purse) := by
  intro id h hHandler hFrozen
  rcases handler_purse hHandler with rfl | rfl
  · exact absurd (hFrozen _ List.mem_cons_self) (by decide)
  · exact reproduces_coin

/-- A coin that is worth five, and a person who is seven years old and whose
friend is the same person. -/
def findings : List (PlannedRecord Slots) :=
  [⟨⟨⟨1001⟩, ⟨1⟩, [5, 0, 0, 0]⟩, .object coin, none⟩,
    ⟨⟨⟨1000⟩, ⟨2⟩, [7, 0, 0, 0, 2, 0, 0, 0, 0, 0, 0, 0]⟩, .object person, none⟩]

theorem prepare_findings :
    prepare (Registry.build purse) none ObjectIds.empty (Chunk.join (findings.map (·.record))) =
      .ok (findings, []) := by
  have hCoin : 4 ≤ maxContentLength.toNat := by decide
  have hPerson : 12 ≤ maxContentLength.toNat := by decide
  refine prepare_join ?_ (by decide) ?_
  · exact List.forall_mem_cons.2 ⟨hCoin, List.forall_mem_singleton.2 hPerson⟩
  · exact List.forall_mem_cons.2 ⟨⟨rfl, ⟨_, rfl⟩, by decide, rfl⟩,
      List.forall_mem_singleton.2 ⟨rfl, ⟨_, rfl⟩, by decide, rfl⟩⟩

/-- The coin is compared and the person is set when both are loaded again. -/
theorem loadObjects_again_findings :
    ∃ live' live'', Regular (Registry.build purse) ∧ Reproduces (Registry.build purse) ∧
      (⟨Graph.empty, ObjectIds.empty⟩ : Live Slots).WellFormed ∧
      (loadObjects (Registry.build purse) none (Chunk.join (findings.map (·.record)))).start
        ⟨Graph.empty, ObjectIds.empty⟩ = (.ok [⟨0⟩, ⟨1⟩], live') ∧
      (loadObjects (Registry.build purse) none (Chunk.join (findings.map (·.record)))).start
        live' = (.ok [⟨0⟩, ⟨1⟩], live'') ∧
      live'.Unchanged (Registry.build purse) [⟨0⟩, ⟨1⟩] live'' := by
  have hEmpty : (⟨Graph.empty, ObjectIds.empty⟩ : Live Slots).WellFormed :=
    Live.wellFormed_empty _
  have hLoad : ∃ live', (loadObjects (Registry.build purse) none
      (Chunk.join (findings.map (·.record)))).start ⟨Graph.empty, ObjectIds.empty⟩ =
        (.ok [⟨0⟩, ⟨1⟩], live') := by
    exact ⟨_, loadObjects_eq_ok.2 ⟨findings, [], _, prepare_findings, rfl, rfl⟩⟩
  obtain ⟨live', hLoad⟩ := hLoad
  obtain ⟨live'', hAgain, hUnchanged⟩ := loadObjects_again purse none _ _ _ _ regular_purse
    reproduces_purse hEmpty hLoad
  exact ⟨live', live'', regular_purse, reproduces_purse, hEmpty, hLoad, hAgain, hUnchanged⟩

end Slots

end ObjectStore
