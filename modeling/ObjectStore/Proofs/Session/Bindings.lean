import ObjectStore.Proofs.Session.Origins
import ObjectStore.Proofs.Storing.Repeating

/-!
# Bindings of a session

What an instance is called does not change as long as a session is open.
Instances are only added to the graph, and every operation on a session adds
bindings at most: a store assigns identifiers of instances that had none, and
gives them back if it fails; a load binds the instances that it creates, and
unbinds them if it fails. So an identifier that is bound stays bound, to an
instance that is still there.

This does not depend on what is registered, or on what the store holds.

## Main results

* `Session.grown_perform`: what one action keeps bound.
* `World.bindings_stable`: what is bound in a session stays bound in it, and
  what was stored can be stored again.
-/

namespace ObjectStore

variable {ι : Type}

/-- Between the two states instances and bindings were added, and none were
taken away. -/
structure Live.Grown (before after : Live ι) : Prop where
  wellFormed : after.WellFormed
  ids : before.ids.KnownIn after.ids
  size : before.graph.size ≤ after.graph.size

namespace Live.Grown

variable {before after later : Live ι}

theorem refl (h : before.WellFormed) : before.Grown before :=
  ⟨h, ObjectIds.KnownIn.refl _, Nat.le_refl _⟩

theorem trans (h : before.Grown after) (h' : after.Grown later) : before.Grown later :=
  ⟨h'.wellFormed, h.ids.trans h'.ids, Nat.le_trans h.size h'.size⟩

/-- What was bound before leads to an instance after, and back. -/
theorem bound (h : before.Grown after) {ref : Ref} {id : ObjectId}
    (hBound : before.ids.objectId? ref = some id) : after.ids.objectId? ref = some id ∧
      after.ids.ref? id = some ref ∧ ref.index < after.graph.size := by
  have hKnown := h.ids ref id hBound
  have hRef := (h.wellFormed.ids.inverse id ref).2 hKnown
  exact ⟨hKnown, hRef, h.wellFormed.within id ref hRef⟩

end Live.Grown

section

variable {live : Live ι}

/-- A larger graph is one that has grown. -/
theorem Live.WellFormed.grown_graph (h : live.WellFormed) {graph : Graph ι}
    (hSize : live.graph.size ≤ graph.size) : live.Grown { live with graph } where
  wellFormed := ⟨h.ids, fun id ref hRef => Nat.lt_of_lt_of_le (h.within id ref hRef) hSize⟩
  ids := ObjectIds.KnownIn.refl _
  size := hSize

variable [Instance ι] {registry : Registry ι}

/-- Storing only adds bindings. -/
theorem Live.WellFormed.grown_storeObjects (h : live.WellFormed) {roots : List Ref}
    {result : Except Error StoredChunk} {ids : ObjectIds}
    (hStore : (storeObjects registry live.graph roots).start live.ids = (result, ids)) :
    live.Grown { live with ids } := by
  cases result with
  | error e =>
      rw [storeObjects_error h.ids hStore]
      exact Live.Grown.refl h
  | ok chunk =>
      obtain ⟨visited, rs, hOutcome⟩ := storeObjects_ok h.ids hStore
      obtain ⟨added, hGrows⟩ := hOutcome.grows
      refine ⟨⟨hGrows.wellFormed, hOutcome.within h.ids h.within⟩, ?_, Nat.le_refl _⟩
      exact fun ref id hId => hGrows.objectId? h.ids hId

/-- Loading only adds instances and bindings. -/
theorem Live.WellFormed.grown_loadObjects (h : live.WellFormed) {matcher : Option Matcher}
    {bytes : Bytes} {result : Except Error (List Ref)} {live' : Live ι}
    (hLoad : (loadObjects registry matcher bytes).start live = (result, live')) :
    live.Grown live' := by
  obtain ⟨bound, hExpands⟩ := expands_loadObjects h hLoad
  refine ⟨⟨hExpands.ids.wellFormed, hExpands.within⟩, ?_, hExpands.size⟩
  exact fun ref id hId => hExpands.ids.objectId? h.ids hId

end

/-! ## Actions in a session -/

namespace Session

variable {session : Session ι}

/-- An attempt on the live instances under which they only grow. -/
theorem grown_onLive {α : Type} {attempt : Attempt (Live ι) α} {live : Live ι}
    (h : ∀ live : Live ι, live.WellFormed → live.Grown (attempt.start live).2) :
    Attempt.Keeps (fun session : Session ι => live.Grown session.live) (onLive attempt) :=
  fun session hGrown => hGrown.trans (h session.live hGrown.wellFormed)

theorem grown_saveDictionary (registry : Registry ι) (live : Live ι) :
    Attempt.Keeps (fun session : Session ι => live.Grown session.live)
      (saveDictionary registry) :=
  (Attempt.keeps_lift _).bind fun _ _ h => h

variable [Instance ι]

theorem grown_storeRoots (registry : Registry ι) (roots : List Ref) (live : Live ι) :
    Attempt.Keeps (fun session : Session ι => live.Grown session.live)
      (storeRoots registry roots) := by
  refine (grown_onLive fun before h => ?_).bind fun chunk => ?_
  · exact h.grown_storeObjects rfl
  · refine (Attempt.keeps_lift _).bind fun dictionary => ?_
    refine Attempt.Keeps.bind (fun _ h => h) fun session => ?_
    exact Attempt.Keeps.bind (fun _ h => h) fun _ => Attempt.keeps_pure _

theorem grown_loadRoots (registry : Registry ι) (live : Live ι) :
    Attempt.Keeps (fun session : Session ι => live.Grown session.live)
      (loadRoots registry) := by
  refine Attempt.Keeps.bind (fun _ h => h) fun session => ?_
  refine (grown_onLive fun before h => h.grown_loadObjects rfl).bind fun _ => ?_
  refine Attempt.Keeps.bind (fun _ h => h) fun _ => ?_
  exact (Attempt.keeps_lift _).bind fun _ => Attempt.keeps_lift _

/-- In a session the live instances only grow, whatever is done and whether it
succeeds or not. -/
theorem grown_perform (h : session.live.WellFormed) (registry : Registry ι)
    (action : SessionAction ι) :
    session.live.Grown (session.perform registry action).2.live := by
  have hSame := Live.Grown.refl h
  cases action with
  | matchWith matcher => exact hSame
  | insert x => exact h.grown_graph (Graph.size_le_insert x session.live.graph)
  | change runtime ref f =>
      exact h.grown_graph (Nat.le_of_eq (Graph.size_changeAs runtime ref f session.live.graph).symm)
  | storeRoots roots => exact grown_storeRoots registry roots session.live session hSame
  | loadRoots => exact grown_loadRoots registry session.live session hSame
  | saveDictionary => exact grown_saveDictionary registry session.live session hSame
  | importDictionary d =>
      exact keeps_import (fun r => grown_saveDictionary r session.live) d (registry, session) hSame

end Session

/-! ## Runs -/

namespace World

variable [Instance ι] {w : World ι} {number : Nat} {session : Session ι}

/-- As long as the session is not closed, it goes on, and its live instances
only grow. -/
theorem grown_step (hUse : w.use = .busy number session) (h : session.live.WellFormed)
    {action : WorldAction ι} (hOpen : action ≠ .closeSession) :
    ∃ session', (w.step action).use = .busy number session' ∧
      session.live.Grown session'.live := by
  have hSame := Live.Grown.refl h
  cases action with
  | register other registration => exact ⟨session, hUse, hSame⟩
  | openSession other =>
      refine ⟨session, ?_, hSame⟩
      simp only [step, hUse]
  | act action =>
      refine ⟨(session.perform (w.registries number) action).2, ?_,
        Session.grown_perform h (w.registries number) action⟩
      simp only [step, hUse]
  | closeSession => exact absurd rfl hOpen

theorem grown_steps (hUse : w.use = .busy number session) (h : session.live.WellFormed)
    {actions : List (WorldAction ι)} (hOpen : .closeSession ∉ actions) :
    ∃ session', (actions.foldl step w).use = .busy number session' ∧
      session.live.Grown session'.live := by
  induction actions generalizing w session with
  | nil => exact ⟨session, hUse, Live.Grown.refl h⟩
  | cons first rest ih =>
      rw [List.mem_cons, not_or] at hOpen
      obtain ⟨session₁, hUse₁, hFirst⟩ := grown_step hUse h (Ne.symm hOpen.1)
      obtain ⟨session', hUse', hRest⟩ := ih hUse₁ hFirst.wellFormed hOpen.2
      exact ⟨session', hUse', hFirst.trans hRest⟩

/-- The live instances of an open session are in order, whatever the
registries and the store are. -/
theorem wellFormed_live_step (h : ∀ number session, w.use = .busy number session →
    session.live.WellFormed) (action : WorldAction ι) :
    ∀ number session, (w.step action).use = .busy number session → session.live.WellFormed := by
  cases action with
  | register other registration => exact h
  | openSession other =>
      cases hUse : w.use with
      | busy _ _ =>
          simp only [step, hUse]
          exact hUse ▸ h
      | idle tables =>
          simp only [step, hUse]
          cases hOpen : (Session.openStore (.opened tables)).start (w.registries other) with
          | mk result registry =>
              cases result with
              | error e =>
                  intro number session hBusy
                  cases hBusy
              | ok session =>
                  intro number session' hBusy
                  cases hBusy
                  rw [Session.openStore_fresh hOpen]
                  exact Live.wellFormed_empty _
  | act action =>
      cases hUse : w.use with
      | idle tables =>
          simp only [step, hUse]
          intro number session hBusy
          cases hBusy
      | busy other session =>
          simp only [step, hUse]
          intro number session' hBusy
          cases hBusy
          exact (Session.grown_perform (h other session hUse) _ action).wellFormed
  | closeSession =>
      intro number session hBusy
      cases hBusy

theorem wellFormed_live_steps (h : ∀ number session, w.use = .busy number session →
    session.live.WellFormed) (actions : List (WorldAction ι)) :
    ∀ number session, (actions.foldl step w).use = .busy number session →
      session.live.WellFormed := by
  induction actions generalizing w with
  | nil => exact h
  | cons first rest ih => exact ih (wellFormed_live_step h first)

/-- Whatever the registries and the tables are, and whatever is done to them:
an identifier that is bound in the open session stays bound to the same live
instance until the session is closed. And what was stored can be stored
again: this gives the same chunk and assigns no identifier. -/
theorem bindings_stable :
    (∀ (registries : Nat → Registry ι) (tables : StoreTables) (before after : List (WorldAction ι))
        (number : Nat) (session : Session ι) (ref : Ref) (id : ObjectId),
      (before.foldl step ⟨registries, .idle tables⟩).use = .busy number session →
      session.live.ids.objectId? ref = some id → .closeSession ∉ after →
      ∃ session', ((before ++ after).foldl step ⟨registries, .idle tables⟩).use =
          .busy number session' ∧
        session'.live.ids.objectId? ref = some id ∧ session'.live.ids.ref? id = some ref ∧
        ref.index < session'.live.graph.size) ∧
      ∀ (registry : Registry ι) (graph : Graph ι) (roots : List Ref) (ids ids' : ObjectIds)
        (chunk : StoredChunk),
        (storeObjects registry graph roots).start ids = (.ok chunk, ids') →
          (storeObjects registry graph roots).start ids' = (.ok chunk, ids') := by
  refine ⟨?_, storeObjects_again⟩
  intro registries tables before after number session ref id hUse hBound hOpen
  have hIdle : ∀ number session, (⟨registries, .idle tables⟩ : World ι).use = .busy number session →
      session.live.WellFormed := fun _ _ hBusy => nomatch hBusy
  have hLive := wellFormed_live_steps hIdle before number session hUse
  obtain ⟨session', hUse', hGrown⟩ := grown_steps hUse hLive hOpen
  rw [List.foldl_append]
  exact ⟨session', hUse', hGrown.bound hBound⟩

end World

/-! ## A couple -/

namespace Slots

/-- Two people become a couple in a session. -/
def wedding : List (WorldAction Slots) :=
  [.openSession 0, .act (.insert ((blank ⟨"Person"⟩).set "friend" (.reference (some ⟨1⟩)))),
    .act (.insert ((blank ⟨"Person"⟩).set "friend" (.reference (some ⟨0⟩))))]

/-- They are stored. -/
def registryOffice : List (WorldAction Slots) := [.act (.storeRoots [⟨0⟩, ⟨1⟩, ⟨0⟩])]

/-- Somebody unknown cannot be stored. Then the couple is loaded. -/
def honeymoon : List (WorldAction Slots) := [.act (.storeRoots [⟨7⟩]), .act .loadRoots]

/-- The session of the couple. -/
def coupleSession : Session Slots :=
  { (Session.fresh EntityStore.empty : Session Slots) with
    live := ⟨couple, ObjectIds.startingAt EntityStore.empty.next⟩ }

theorem split_couple : Chunk.split (Chunk.join coupleRecords) = ⟨coupleRecords, none⟩ := by
  apply Chunk.split_join
  have hLength : ∀ r ∈ coupleRecords, r.content.length = 16 := by decide
  intro r hr
  rw [Chunk.Acceptable, hLength r hr]
  decide

/-- Only staff is registered, and nothing is stored. -/
def cityHall : World Slots := ⟨fun _ => Registry.build staff, .idle StoreTables.empty⟩

theorem steps_wedding : ∃ session, ((wedding ++ registryOffice).foldl World.step cityHall).use =
    .busy 0 session ∧ session.live.ids = coupleIds := by
  obtain ⟨d, hSnapshot⟩ : ∃ d, (Registry.build staff).snapshot = .ok d := ⟨_, rfl⟩
  have hBusy : (wedding.foldl World.step cityHall).use = .busy 0 coupleSession := rfl
  have hStaff : (wedding.foldl World.step cityHall).registries 0 = Registry.build staff := rfl
  have hStart := @Session.start_storeRoots_ok _ _ _ coupleSession _ _ _ _ _ storeObjects_couple
    hSnapshot split_couple (RootList.fits_of_length (by decide))
  rw [List.foldl_append]
  simp only [registryOffice, List.foldl_cons, List.foldl_nil, World.step, hBusy, hStaff,
    Session.perform, hStart]
  exact ⟨_, rfl, rfl⟩

/-- The second person stays the second object. -/
theorem bindings_stable_couple :
    (∃ session session', ((wedding ++ registryOffice).foldl World.step cityHall).use =
          .busy 0 session ∧
        session.live.ids.objectId? ⟨1⟩ = some ⟨2⟩ ∧ .closeSession ∉ honeymoon ∧
        ((wedding ++ registryOffice ++ honeymoon).foldl World.step cityHall).use =
          .busy 0 session' ∧
        session'.live.ids.objectId? ⟨1⟩ = some ⟨2⟩) ∧
      (storeObjects (Registry.build staff) couple [⟨0⟩, ⟨1⟩, ⟨0⟩]).start coupleIds =
        (.ok ⟨Chunk.join coupleRecords, [⟨1⟩, ⟨2⟩, ⟨1⟩], 2⟩, coupleIds) := by
  obtain ⟨hBindings, hAgain⟩ := @World.bindings_stable Slots _
  refine ⟨?_, hAgain _ _ _ _ _ _ storeObjects_couple⟩
  obtain ⟨session, hUse, hIds⟩ := steps_wedding
  have hBound : session.live.ids.objectId? ⟨1⟩ = some ⟨2⟩ := by
    rw [hIds]
    rfl
  have hOpen : WorldAction.closeSession ∉ honeymoon := by simp [honeymoon]
  obtain ⟨session', hUse', hBound', -⟩ :=
    hBindings _ _ (wedding ++ registryOffice) honeymoon 0 session ⟨1⟩ ⟨2⟩ hUse hBound hOpen
  exact ⟨session, session', hUse, hBound, hOpen, hUse', hBound'⟩

end Slots

end ObjectStore
