import ObjectStore.Proofs.Handler.RoundTrip
import ObjectStore.Proofs.Storing.Validity

/-!
# Records that are appended

Storing one instance appends one record to what has been written, or nothing
at all. Three computations have to agree for the record to be a good one: the
length that the header announces is found before anything is written, the
bytes come from the fields, and the offsets at which readers look for them
come from the layout. They agree whatever the identifiers are that are
answered for the references.

The state that records are appended to is a `Writer`. Whoever identifies
instances has a state of its own beside it, and cannot touch what was written.

## Main results

* `ObjectHandler.store_eq_ok`: the record that storing an instance gives.
* `ObjectHandler.renders_recordWith`: what readers find in it.
* `ObjectHandler.append_store`: what is appended, and when.
-/

namespace ObjectStore

variable {ι σ : Type} {identify : Ref → Attempt σ ObjectId} {s s' : σ}

/-! ## Fields -/

/-- What is read at an offset of the record is what was written of the member
of an instance, with these identifiers for the references in it. -/
def Access.Recorded (r : Record) (offset : Nat) (ids : List ObjectId) (access : Access ι) (x : ι) :
    Prop :=
  match access with
  | value kind get _ => r.slice offset kind.width = .ok (kind.encode (get x))
  | reference _ _ => r.slice offset 8 = .ok (Word.ofWord (ids.headD ObjectId.null).value)
  | bytes get _ => r.readVariable offset = .ok (get x)
  | text get _ => r.readVariable offset = .ok (Text.encode (get x))
  | references _ _ => r.readVariable offset = .ok (writeIds ids)

theorem Access.recorded_of_stands {access : Access ι} {r : Record} {m : Member} {offset : UInt64}
    {ids : List ObjectId} {x : ι} (hFits : r.Fits) (hKind : m.kind = access.kind)
    (hStands : r.Stands m (access.bytesWith ids x)) (hOffset : m.offset = some offset) :
    access.Recorded r offset.toNat ids x := by
  have hVariable : access.kind.isVariable = true → m.kind.isVariable = true := by
    rw [hKind]
    exact id
  cases access with
  | value kind get set =>
      have hSlice := hStands.slice hFits hOffset
      rw [bytesWith, PrimitiveKind.length_encode] at hSlice
      exact hSlice
  | reference get set =>
      have hSlice := hStands.slice hFits hOffset
      rw [bytesWith, Word.length_ofWord] at hSlice
      exact hSlice
  | bytes get set => exact Record.Stands.readVariable hStands hFits (hVariable rfl) hOffset
  | text get set => exact Record.Stands.readVariable hStands hFits (hVariable rfl) hOffset
  | references get set =>
      rw [bytesWith, writeObjectIds_eq] at hStands
      exact hStands.readVariable hFits (hVariable rfl) hOffset

namespace ObjectHandler

variable {h : ObjectHandler ι} {d : Derived ι} {object : ObjectId} {x : ι}
  {fields : List (Declaration (Access ι))} {answers : List (List ObjectId)}

/-- For each reference in each field there is one answer. -/
def Answered (fields : List (Declaration (Access ι))) (x : ι) (answers : List (List ObjectId)) :
    Prop :=
  List.Forall₂ (fun f ids => ids.length = (f.payload.held x).length) fields answers

/-- Whoever asks about all references gets an answer for each of them. -/
theorem answered_of_start
    (hAsked : Attempt.start (fields.mapM fun f => (f.payload.held x).mapM identify) s =
      (.ok answers, s')) : Answered fields x answers :=
  Attempt.forall₂_of_start_mapM (fun _ _ _ _ h => Attempt.length_of_start_mapM h) hAsked

/-- What holds of the parts holds of the fields with their answers. -/
theorem forall₂_partsWith {R : Member → Bytes → Prop} (hAnswered : Answered fields x answers) :
    List.Forall₂ R (fields.map Declaration.member) (partsWith fields answers x) ↔
      List.Forall₂ (fun f ids => ids.length = (f.payload.held x).length ∧
        R f.member (f.payload.bytesWith ids x)) fields answers := by
  induction hAnswered with
  | nil =>
      constructor
      · intro _
        exact List.Forall₂.nil
      · intro _
        exact List.Forall₂.nil
  | cons hLength _ ih =>
      rw [partsWith, List.map_cons, List.zipWith_cons_cons, List.forall₂_cons, List.forall₂_cons,
        ← partsWith, ih, and_iff_right hLength]

theorem measures_partsWith (hKinds : ∀ f ∈ fields, f.member.kind = f.payload.kind)
    (hAnswered : Answered fields x answers) :
    List.Forall₂ Record.Measures (fields.map Declaration.member) (partsWith fields answers x) := by
  rw [forall₂_partsWith hAnswered]
  induction hAnswered with
  | nil => exact List.Forall₂.nil
  | @cons f ids _ _ hLength _ ih =>
      obtain ⟨hHead, hRest⟩ := List.forall_mem_cons.1 hKinds
      have hNull := @measures_bytesOf _ (fun _ => ObjectId.null) x _ _ hHead
      have hSame := Access.length_bytesWith (fun _ => ObjectId.null) hLength
      exact List.Forall₂.cons ⟨hLength, fun hFixed => hSame.trans (hNull.fixed hFixed),
        fun hVariable => hSame ▸ hNull.counted hVariable⟩ (ih hRest)

theorem length_partsWith (name : Ref → ObjectId) (hAnswered : Answered fields x answers) :
    (partsWith fields answers x).flatten.length =
      (fields.map fun f => (f.payload.bytesOf name x).length).sum := by
  induction hAnswered with
  | nil => rfl
  | cons hLength _ ih =>
      rw [partsWith, List.zipWith_cons_cons, List.flatten_cons, List.length_append, List.map_cons,
        List.sum_cons, ← partsWith, ih, Access.length_bytesWith name hLength]

/-! ## Records -/

/-- The record of an instance, with these identifiers for the references in
each field. -/
def recordWith (h : ObjectHandler ι) (d : Derived ι) (answers : List (List ObjectId))
    (object : ObjectId) (x : ι) : Record :=
  ⟨h.id, object, (partsWith d.fields answers x).flatten⟩

/-- The length of the content of an instance's record. -/
def size (d : Derived ι) (x : ι) : Nat := (content d (fun _ => ObjectId.null) x).length

/-- No answer makes a content shorter or longer. -/
theorem length_recordWith (hAnswered : Answered d.fields x answers) :
    (h.recordWith d answers object x).content.length = size d x := by
  rw [size, length_content]
  exact length_partsWith _ hAnswered

/-- An instance that can be stored has a record that readers accept. -/
theorem acceptable_recordWith (hSmall : size d x ≤ maxContentLength.toNat)
    (hAnswered : Answered d.fields x answers) :
    Chunk.Acceptable (h.recordWith d answers object x) :=
  Nat.le_trans (Nat.le_of_eq (length_recordWith hAnswered)) hSmall

theorem header_recordWith (hAnswered : Answered d.fields x answers) :
    (h.recordWith d answers object x).header =
      (h.recordOf d (fun _ => ObjectId.null) object x).header := by
  show Header.mk (UInt64.ofNat (h.recordWith d answers object x).content.length) h.id object = _
  rw [length_recordWith hAnswered]
  rfl

variable [Instance ι]

/-- How an instance is stored: it is of the runtime type, there is an answer
for each of its references, and its content is not too large. -/
theorem store_eq_ok {bytes : Bytes} :
    (h.store identify object x).start s = (.ok bytes, s') ↔
      ∃ d answers, h.derived = .ok d ∧ Instance.runtimeType x = h.runtime ∧
        size d x ≤ maxContentLength.toNat ∧
        Attempt.start (d.fields.mapM fun f => (f.payload.held x).mapM identify) s =
          (.ok answers, s') ∧
        bytes = (h.recordWith d answers object x).encode := by
  rw [start_store_ok]
  constructor
  · rintro ⟨d, front, parts, hDerived, hTyped, hFront, hParts, rfl⟩
    obtain ⟨answers, hAsked, rfl⟩ := write_fields_eq_ok.1 hParts
    obtain ⟨hSmall, rfl⟩ :=
      (begin_contentLength (derived_eq_ok hDerived) (fun _ => ObjectId.null) x).1 hFront
    refine ⟨d, answers, hDerived, hTyped, hSmall, hAsked, ?_⟩
    rw [← header_recordWith (answered_of_start hAsked)]
    rfl
  · rintro ⟨d, answers, hDerived, hTyped, hSmall, hAsked, rfl⟩
    refine ⟨d, _, _, hDerived, hTyped, (begin_contentLength (derived_eq_ok hDerived)
      (fun _ => ObjectId.null) x).2 ⟨hSmall, rfl⟩, write_fields_eq_ok.2 ⟨answers, hAsked, rfl⟩, ?_⟩
    rw [← header_recordWith (answered_of_start hAsked)]
    rfl

omit [Instance ι] in
/-- Readers find in the record what was written of an instance, with these
identifiers for the references in each field. -/
structure Renders (h : ObjectHandler ι) (d : Derived ι) (object : ObjectId)
    (answers : List (List ObjectId)) (x : ι) (r : Record) : Prop where
  type : r.type = h.id
  object : r.object = object
  length : r.length.toNat = r.content.length
  parsed : Record.parse r.encode = .ok r
  split : Chunk.split r.encode = ⟨[r], none⟩
  accepted : d.definition.acceptsLength r.length = true
  content : r.content = (partsWith d.fields answers x).flatten
  fields : List.Forall₂ (fun f ids => ids.length = (f.payload.held x).length ∧
    ∃ offset, f.member.offset = some offset ∧ f.payload.Recorded r offset.toNat ids x)
      d.fields answers

omit [Instance ι] in
theorem stands_recordWith (hOrders : d.Orders h) (hSmall : size d x ≤ maxContentLength.toNat)
    (hAnswered : Answered d.fields x answers) :
    List.Forall₂ (fun f ids => ids.length = (f.payload.held x).length ∧
      (h.recordWith d answers object x).Stands f.member (f.payload.bytesWith ids x))
        d.fields answers := by
  have hAcceptable := @acceptable_recordWith _ h d object x answers hSmall hAnswered
  have hFills := (measures_partsWith hOrders.kind hAnswered).imp fun _ _ hPart => hPart.fixed
  have hStands := @Record.stands_of_laidOut (h.recordWith d answers object x) 0 _ _ []
    (Chunk.fits_of_acceptable hAcceptable) hOrders.laidOut hFills rfl rfl
  exact (forall₂_partsWith hAnswered).1 hStands

omit [Instance ι] in
/-- Readers find in the record of an instance what was written of it. -/
theorem renders_recordWith (hDerived : h.derived = .ok d)
    (hSmall : size d x ≤ maxContentLength.toNat) (hAnswered : Answered d.fields x answers) :
    h.Renders d object answers x (h.recordWith d answers object x) := by
  have hOrders := derived_eq_ok hDerived
  have hAcceptable := @acceptable_recordWith _ h d object x answers hSmall hAnswered
  have hFits := Chunk.fits_of_acceptable hAcceptable
  have hStands := @stands_recordWith _ h d object x answers hOrders hSmall hAnswered
  exact
    { type := rfl
      object := rfl
      length := Record.toNat_length hFits
      parsed := Record.parse_encode hFits
      split := by
        have hSplit := Chunk.split_join (List.forall_mem_singleton.2 hAcceptable)
        rw [Chunk.join, List.flatMap_singleton] at hSplit
        exact hSplit
      accepted := by
        have hParts := measures_partsWith hOrders.kind hAnswered
        rw [← hOrders.members] at hParts
        exact Definition.acceptsLength_of_parts hParts rfl hAcceptable
      content := rfl
      fields := by
        have hEach := (List.forall₂_and_left _ _).2 ⟨hOrders.kind, hStands⟩
        refine hEach.imp ?_
        rintro f ids ⟨hKind, hLength, hPart⟩
        obtain ⟨offset, -, hOffset⟩ := hPart.place
        exact ⟨hLength, offset, hOffset, Access.recorded_of_stands hFits hKind hPart hOffset⟩ }

end ObjectHandler

/-! ## Writers -/

/-- A state to which records are appended, one behind the other. -/
structure Writer (identify : Ref → Attempt σ ObjectId) where
  /-- What has been written. -/
  written : σ → Bytes
  push : Bytes → σ → σ
  written_push : ∀ record s, written (push record s) = written s ++ record
  /-- Identifying an instance does not touch what has been written. -/
  apart : ∀ ref s, written ((identify ref).start s).2 = written s

namespace Writer

/-- Appends a record to what has been written. -/
def append (writer : Writer identify) (record : Attempt σ Bytes) : Attempt σ Unit := do
  let record ← record
  Attempt.modify fun s => .ok (writer.push record s)

/-- Identifies instances with what has been written beside the own state. -/
def aside (identify : Ref → Attempt σ ObjectId) (ref : Ref) : Attempt (σ × Bytes) ObjectId :=
  Attempt.within Prod.fst (fun part s => (part, s.2)) (identify ref)

/-- Every identification has a writer beside it. -/
def beside (identify : Ref → Attempt σ ObjectId) : Writer (aside identify) where
  written s := s.2
  push record s := (s.1, s.2 ++ record)
  written_push _ _ := rfl
  apart _ _ := rfl

theorem append_ok {writer : Writer identify} {record : Attempt σ Bytes} :
    (writer.append record).start s = (.ok (), s') ↔
      ∃ bytes s₁, record.start s = (.ok bytes, s₁) ∧ s' = writer.push bytes s₁ := by
  rw [append, Attempt.start_bind_ok]
  constructor
  · rintro ⟨bytes, s₁, hRecord, hPush⟩
    exact ⟨bytes, s₁, hRecord, (Except.ok.inj (Attempt.start_modify_eq_ok.1 hPush)).symm⟩
  · rintro ⟨bytes, s₁, hRecord, rfl⟩
    exact ⟨bytes, s₁, hRecord, Attempt.start_modify_eq_ok.2 rfl⟩

theorem append_error {writer : Writer identify} {record : Attempt σ Bytes} {e : Error}
    (h : (writer.append record).start s = (.error e, s')) : record.start s = (.error e, s') := by
  rcases Attempt.start_bind_error.1 h with hRecord | ⟨bytes, s₁, -, hPush⟩
  · exact hRecord
  · cases hPush

variable [Instance ι] {h : ObjectHandler ι} {object : ObjectId} {x : ι}

/-- Storing an instance leaves alone what has been written. -/
theorem written_store (writer : Writer identify) {result : Except Error Bytes}
    (hStore : (h.store identify object x).start s = (result, s')) :
    writer.written s' = writer.written s := by
  have hKeeps : ∀ ref, Attempt.Keeps (fun s₁ => writer.written s₁ = writer.written s)
      (identify ref) :=
    fun ref s₁ h₁ => (writer.apart ref s₁).trans h₁
  have hAfter := ObjectHandler.keeps_store hKeeps h object x s rfl
  rw [hStore] at hAfter
  exact hAfter

end Writer

namespace Storing

/-- The records of a store operation are appended to those before. -/
def writer : Writer Storing.identify where
  written s := s.records.toList.flatten
  push record s := { s with records := s.records.push record }
  written_push record s := by simp
  apart ref s := by
    rw [Storing.identify, Attempt.start_of]
    split <;> rfl

/-- A store operation appends the record of each instance that it visits. -/
theorem storeInstance_eq [Instance ι] (registry : Registry ι) (graph : Graph ι) (ref : Ref) :
    storeInstance registry graph ref = (do
      let handler ← Attempt.lift (graph.handler registry ref)
      let object ← Storing.identify ref
      let x ← Attempt.lift (graph.get ref)
      writer.append (handler.store Storing.identify object x)) := rfl

end Storing

/-! ## Main statement -/

namespace ObjectHandler

variable [Instance ι] {h : ObjectHandler ι} {d : Derived ι}

/--
Storing an instance appends the bytes of one record, which readers accept and
in which they find what was written, or leaves alone what has been written. It
succeeds exactly if the instance is one of the type, its content is not longer
than readers accept, and there are answers for its references.
-/
theorem append_store (writer : Writer identify) (hDerived : h.derived = .ok d) (object : ObjectId)
    (x : ι) (s : σ) :
    (∀ s', (writer.append (h.store identify object x)).start s = (.ok (), s') →
      ∃ answers r s₁,
        Attempt.start (d.fields.mapM fun f => (f.payload.held x).mapM identify) s =
            (.ok answers, s₁) ∧
          s' = writer.push r.encode s₁ ∧
          writer.written s' =
            writer.written s ++ (Header.write ⟨r.length, h.id, object⟩ ++ r.content) ∧
          h.Renders d object answers x r) ∧
      (∀ e s', (writer.append (h.store identify object x)).start s = (.error e, s') →
        writer.written s' = writer.written s) ∧
      ((∃ s', (writer.append (h.store identify object x)).start s = (.ok (), s')) ↔
        Instance.runtimeType x = h.runtime ∧ size d x ≤ maxContentLength.toNat ∧
          ∃ answers s₁,
            Attempt.start (d.fields.mapM fun f => (f.payload.held x).mapM identify) s =
              (.ok answers, s₁)) := by
  refine ⟨?_, ?_, ?_⟩
  · intro s' hAppend
    obtain ⟨bytes, s₁, hStore, rfl⟩ := Writer.append_ok.1 hAppend
    obtain ⟨d', answers, hDerived', -, hSmall, hAsked, rfl⟩ := store_eq_ok.1 hStore
    cases hDerived.symm.trans hDerived'
    refine ⟨answers, _, s₁, hAsked, rfl, ?_,
      renders_recordWith hDerived hSmall (answered_of_start hAsked)⟩
    rw [writer.written_push, writer.written_store hStore]
    rfl
  · intro e s' hAppend
    exact writer.written_store (Writer.append_error hAppend)
  · constructor
    · rintro ⟨s', hAppend⟩
      obtain ⟨bytes, s₁, hStore, -⟩ := Writer.append_ok.1 hAppend
      obtain ⟨d', answers, hDerived', hTyped, hSmall, hAsked, -⟩ := store_eq_ok.1 hStore
      cases hDerived.symm.trans hDerived'
      exact ⟨hTyped, hSmall, answers, s₁, hAsked⟩
    · rintro ⟨hTyped, hSmall, answers, s₁, hAsked⟩
      have hStore : (h.store identify object x).start s =
          (.ok (h.recordWith d answers object x).encode, s₁) :=
        store_eq_ok.2 ⟨d, answers, hDerived, hTyped, hSmall, hAsked, rfl⟩
      exact ⟨_, Writer.append_ok.2 ⟨_, s₁, hStore, rfl⟩⟩

end ObjectHandler

namespace Slots

/-- Answers each question with a new identifier, whatever instance it is
about. -/
def ticket (_ : Ref) : Attempt Nat ObjectId :=
  Attempt.of fun next => (.ok ⟨UInt64.ofNat next⟩, next + 1)

/-- The boss of the clerk and his three friends get four identifiers, although
there are two of them. The record stands behind a byte that was there. -/
theorem append_store_clerk : ∃ d r, worker.derived = .ok d ∧
    ((Writer.beside ticket).append (worker.store (Writer.aside ticket) ⟨9⟩ clerk)).start
      (5, [170]) = (.ok (), (9, [170] ++ r.encode)) ∧
    worker.Renders d ⟨9⟩ [[], [⟨5⟩], [⟨6⟩, ⟨7⟩, ⟨8⟩]] clerk r := by
  obtain ⟨d, hDerived, hAsked⟩ : ∃ d, worker.derived = .ok d ∧
      Attempt.start (d.fields.mapM fun f => (f.payload.held clerk).mapM (Writer.aside ticket))
        (5, [170]) = (.ok [[], [⟨5⟩], [⟨6⟩, ⟨7⟩, ⟨8⟩]], (9, [170])) :=
    ⟨_, rfl, rfl⟩
  obtain ⟨s', hAppend⟩ : ∃ s', ((Writer.beside ticket).append
      (worker.store (Writer.aside ticket) ⟨9⟩ clerk)).start (5, [170]) = (.ok (), s') :=
    ⟨_, rfl⟩
  obtain ⟨answers, r, s₁, hAnswers, hState, -, hRenders⟩ :=
    (ObjectHandler.append_store (Writer.beside ticket) hDerived ⟨9⟩ clerk (5, [170])).1 s' hAppend
  obtain ⟨hSame, rfl⟩ := Prod.mk.inj (hAsked.symm.trans hAnswers)
  cases hSame
  rw [hState] at hAppend
  exact ⟨d, r, hDerived, hAppend, hRenders⟩

end Slots

end ObjectStore
