import ObjectStore.Proofs.Record.Chunk

/-!
# Record by record

A chunk need not be split at once. A splitter stands at a position of its
chunk and gives the record that begins there, or the fault that stands in its
place. Behind a record it goes on, behind a fault it does not. Every record
takes up bytes, so a splitter comes to an end on every chunk, and what it has
given by then is what splitting the chunk at once gives.

## Main results

* `Splitter.rest_of_next?`: a step takes the written form of a record away.
* `Splitter.Yields.tiles`: the records of a run are the front of the chunk.
* `Splitter.yields_iff`: every run comes to an end, and with what.
* `Splitter.yields_exact`: what a splitter gives of any bytes, and of records
  that were joined.
-/

namespace ObjectStore

/-! ## What is given of a chunk -/

namespace Chunk

variable {chunk chunk' : Chunk} {position : Nat} {bytes left : Bytes} {r : Record}

/-- What is given of a chunk: the records, and behind them the fault if there
is one. -/
def items (chunk : Chunk) : List (Except Corruption Record) :=
  chunk.records.map .ok ++ chunk.fault.toList.map .error

/-- A chunk is told by what is given of it. -/
theorem items_inj (h : chunk.items = chunk'.items) : chunk = chunk' := by
  have hRead : ∀ c : Chunk, c.items.filterMap Except.toOption = c.records := by
    intro c
    cases hFault : c.fault <;>
      simp [items, hFault, List.filterMap_map, Function.comp_def, Except.toOption]
  have hRecords : chunk.records = chunk'.records := by
    rw [← hRead chunk, h, hRead chunk']
  rw [items, items, hRecords, List.append_right_inj] at h
  obtain ⟨records, fault⟩ := chunk
  obtain ⟨records', fault'⟩ := chunk'
  cases hRecords
  cases fault <;> cases fault' <;> simp_all

/-- The records are the front of the bytes, which stand at a position, and
all of them exactly if there is no fault. A fault is that of the bytes behind
the records. -/
structure Tiles (chunk : Chunk) (position : Nat) (bytes : Bytes) : Prop where
  front : join chunk.records <+: bytes
  whole : chunk.fault = none ↔ join chunk.records = bytes
  behind : ∀ cause, chunk.fault = some cause →
    takeRecord (position + (join chunk.records).length)
      (bytes.drop (join chunk.records).length) = .error cause
  parsed : ∀ r ∈ chunk.records, Acceptable r ∧ Record.parse r.encode = .ok r

theorem tiles_nil : Tiles ⟨[], none⟩ position [] where
  front := List.prefix_refl []
  whole := by simp [join]
  behind := by simp
  parsed := by simp

theorem tiles_fault {cause : Corruption} (hTake : takeRecord position bytes = .error cause)
    (hLeft : bytes ≠ []) : Tiles ⟨[], some cause⟩ position bytes where
  front := List.nil_prefix
  whole := by simp [join, hLeft.symm]
  behind := by
    intro _ hCause
    cases hCause
    exact hTake
  parsed := by simp

theorem Tiles.cons (h : chunk.Tiles (position + r.encode.length) left)
    (hParts : r.encode ++ left = bytes) (hAcceptable : Acceptable r) :
    Tiles ⟨r :: chunk.records, chunk.fault⟩ position bytes where
  front := by
    rw [← hParts]
    exact (List.prefix_append_right_inj _).2 h.front
  whole := by
    rw [h.whole, ← hParts]
    exact (List.append_right_inj _).symm
  behind := by
    intro cause hCause
    have hBehind := h.behind cause hCause
    rw [← hParts]
    show takeRecord (position + (r.encode ++ join chunk.records).length)
      ((r.encode ++ left).drop (r.encode ++ join chunk.records).length) = _
    rw [List.length_append, ← Nat.add_assoc, ← List.drop_drop, List.drop_left]
    exact hBehind
  parsed := List.forall_mem_cons.2
    ⟨⟨hAcceptable, Record.parse_encode (fits_of_acceptable hAcceptable)⟩, h.parsed⟩

end Chunk

/-- A chunk, and the position up to which it is split. -/
structure Splitter where
  bytes : Bytes
  position : Nat

namespace Splitter

/-- The chunk of which nothing is split yet. -/
def ofBytes (bytes : Bytes) : Splitter := ⟨bytes, 0⟩

/-- What is not split yet. -/
def rest (s : Splitter) : Bytes := s.bytes.drop s.position

/-- The next record with the splitter behind it, or the fault in its place
with the splitter behind the last byte. There is nothing at the end. -/
def next? (s : Splitter) : Option (Except Corruption Record × Splitter) :=
  if s.bytes.length ≤ s.position then none
  else
    match Chunk.takeRecord s.position s.rest with
    | .ok r => some (.ok r, { s with position := s.position + (Header.size + r.content.length) })
    | .error cause => some (.error cause, { s with position := s.bytes.length })

/-- The splitter gives the items, one after the other, and then it is at the
end. -/
inductive Yields : Splitter → List (Except Corruption Record) → Prop where
  | done {s : Splitter} : s.next? = none → Yields s []
  | more {s s' : Splitter} {item : Except Corruption Record}
      {items : List (Except Corruption Record)} :
      s.next? = some (item, s') → Yields s' items → Yields s (item :: items)

variable {s s' : Splitter} {r : Record} {cause : Corruption}
  {item : Except Corruption Record} {items items' : List (Except Corruption Record)}

/-! ## Steps -/

theorem rest_eq_nil : s.rest = [] ↔ s.bytes.length ≤ s.position := List.drop_eq_nil_iff

theorem next?_of_ok (h : s.rest ≠ []) (hTake : Chunk.takeRecord s.position s.rest = .ok r) :
    s.next? =
      some (.ok r, { s with position := s.position + (Header.size + r.content.length) }) := by
  unfold next?
  rw [if_neg (mt rest_eq_nil.2 h), hTake]

theorem next?_of_error (h : s.rest ≠ [])
    (hTake : Chunk.takeRecord s.position s.rest = .error cause) :
    s.next? = some (.error cause, { s with position := s.bytes.length }) := by
  unfold next?
  rw [if_neg (mt rest_eq_nil.2 h), hTake]

theorem next?_eq_none : s.next? = none ↔ s.rest = [] := by
  constructor
  · intro hEnd
    refine Decidable.of_not_not fun hLeft => ?_
    cases hTake : Chunk.takeRecord s.position s.rest with
    | ok r =>
        rw [next?_of_ok hLeft hTake] at hEnd
        cases hEnd
    | error cause =>
        rw [next?_of_error hLeft hTake] at hEnd
        cases hEnd
  · intro hNil
    unfold next?
    rw [if_pos (rest_eq_nil.1 hNil)]

/-- A step gives the record at the front of what is left and takes its
written form away, or it gives the fault there and takes everything away. -/
theorem rest_of_next? (h : s.next? = some (item, s')) :
    s.rest ≠ [] ∧ Chunk.takeRecord s.position s.rest = item ∧
      ((∃ r, item = .ok r ∧ r.encode ++ s'.rest = s.rest ∧
          s'.position = s.position + r.encode.length) ∨
        (∃ cause, item = .error cause) ∧ s'.rest = []) := by
  have hLeft : s.rest ≠ [] := by
    intro hNil
    rw [next?_eq_none.2 hNil] at h
    cases h
  cases hTake : Chunk.takeRecord s.position s.rest with
  | ok r =>
      rw [next?_of_ok hLeft hTake] at h
      cases h
      refine ⟨hLeft, rfl, Or.inl ⟨r, rfl, ?_, ?_⟩⟩
      · rw [Chunk.encode_of_takeRecord hTake, rest, rest, ← List.drop_drop]
        exact List.take_append_drop _ _
      · rw [Record.length_encode]
  | error cause =>
      rw [next?_of_error hLeft hTake] at h
      cases h
      exact ⟨hLeft, rfl, Or.inr ⟨⟨cause, rfl⟩, List.drop_length⟩⟩

/-! ## Runs -/

/-- What a run gives are records that are the front of what was left, and
then at most one fault. -/
theorem Yields.tiles (h : s.Yields items) :
    ∃ chunk : Chunk, items = chunk.items ∧ chunk.Tiles s.position s.rest := by
  induction h with
  | @done s hEnd =>
      refine ⟨⟨[], none⟩, rfl, ?_⟩
      rw [next?_eq_none.1 hEnd]
      exact Chunk.tiles_nil
  | @more s s' item items hNext hItems ih =>
      obtain ⟨hLeft, hTake, ⟨r, rfl, hParts, hPosition⟩ | ⟨⟨cause, rfl⟩, hEnd⟩⟩ :=
        rest_of_next? hNext
      · obtain ⟨chunk, rfl, hTiles⟩ := ih
        rw [hPosition] at hTiles
        exact ⟨⟨r :: chunk.records, chunk.fault⟩, rfl,
          hTiles.cons hParts (Chunk.acceptable_of_takeRecord hTake)⟩
      · -- Behind a fault the splitter is at the end.
        cases hItems with
        | done => exact ⟨⟨[], some cause⟩, rfl, Chunk.tiles_fault hTake hLeft⟩
        | more hMore =>
            rw [next?_eq_none.2 hEnd] at hMore
            cases hMore

theorem Yields.unique (h : s.Yields items) (h' : s.Yields items') : items = items' := by
  induction h generalizing items' with
  | done hEnd =>
      cases h' with
      | done => rfl
      | more hNext =>
          rw [hEnd] at hNext
          cases hNext
  | more hNext _ ih =>
      cases h' with
      | done hEnd =>
          rw [hEnd] at hNext
          cases hNext
      | more hNext' hItems' =>
          rw [hNext] at hNext'
          cases hNext'
          rw [ih hItems']

/-- A splitter comes to an end, and has given then what splitting all the
rest at once gives. -/
theorem yields_split (s : Splitter) : s.Yields (Chunk.splitFrom s.position s.rest).items := by
  -- By induction on what is left, as it is split at once.
  generalize hPosition : s.position = position
  generalize hLeft : s.rest = left
  fun_induction Chunk.splitFrom position left generalizing s with
  | case1 => exact .done (next?_eq_none.2 hLeft)
  | case2 position left hNot cause hTake =>
      subst hPosition hLeft
      exact .more (next?_of_error hNot hTake) (.done (next?_eq_none.2 List.drop_length))
  | case3 position left hNot r hTake size chunk ih =>
      subst hPosition hLeft
      refine .more (next?_of_ok hNot hTake) (ih _ rfl ?_)
      rw [rest, rest, List.drop_drop]

theorem yields_iff : s.Yields items ↔ items = (Chunk.splitFrom s.position s.rest).items := by
  constructor
  · exact fun h => h.unique (yields_split s)
  · rintro rfl
    exact yields_split s

theorem yields_ofBytes {bytes : Bytes} :
    (ofBytes bytes).Yields items ↔ items = (Chunk.split bytes).items :=
  yields_iff

/-- The records of a chunk are its front, and its fault is behind them. -/
theorem tiles_split (bytes : Bytes) : (Chunk.split bytes).Tiles 0 bytes := by
  have hRun : (ofBytes bytes).Yields (Chunk.split bytes).items := yields_ofBytes.2 rfl
  obtain ⟨chunk, hItems, hTiles⟩ := hRun.tiles
  rw [Chunk.items_inj hItems]
  exact hTiles

/-! ## Main statement -/

/--
On any bytes a splitter comes to an end, and has given by then the records of
the chunk and perhaps one fault, which is the last thing that it gives. The
written forms of these records are the front of the bytes, and all of them
exactly if there was no fault. On records that were written one behind the
other, with headers that state the lengths of their contents and none of them
too long, it gives these records and no fault.
-/
theorem yields_exact :
    (∀ bytes : Bytes, (Chunk.split bytes).Tiles 0 bytes ∧
        ∀ items, (ofBytes bytes).Yields items ↔ items = (Chunk.split bytes).items) ∧
      ∀ parts : List (Header × Bytes),
        (∀ p ∈ parts, p.2.length = p.1.length.toNat ∧ p.1.length ≤ maxContentLength) →
          ∀ items, (ofBytes (parts.flatMap fun p => p.1.write ++ p.2)).Yields items ↔
            items = parts.map fun p => .ok ⟨p.1.type, p.1.object, p.2⟩ := by
  refine ⟨fun bytes => ⟨tiles_split bytes, fun items => yields_ofBytes⟩, ?_⟩
  · intro parts hParts items
    have hJoin : (parts.flatMap fun p => p.1.write ++ p.2) =
        Chunk.join (parts.map fun p => ⟨p.1.type, p.1.object, p.2⟩) := by
      rw [Chunk.join, List.flatMap_map]
      refine List.flatMap_congr fun p hp => ?_
      rw [Record.encode, Record.header_of_length (hParts p hp).1]
    have hAcceptable : ∀ r ∈ parts.map fun p => (⟨p.1.type, p.1.object, p.2⟩ : Record),
        Chunk.Acceptable r := by
      rw [List.forall_mem_map]
      intro p hp
      obtain ⟨hLength, hMax⟩ := hParts p hp
      show p.2.length ≤ _
      rw [hLength]
      exact UInt64.le_iff_toNat_le.1 hMax
    rw [hJoin, yields_ofBytes, Chunk.split_join hAcceptable, Chunk.items, List.map_map]
    simp [Function.comp_def]

/-- A record of two bytes and one without content. -/
def parcels : List (Header × Bytes) := [(⟨2, ⟨1⟩, ⟨1⟩⟩, [5, 7]), (⟨0, ⟨2⟩, ⟨3⟩⟩, [])]

/-- Both are given, and then the splitter is at the end. -/
theorem yields_exact_parcels :
    (∀ p ∈ parcels, p.2.length = p.1.length.toNat ∧ p.1.length ≤ maxContentLength) ∧
      (ofBytes (parcels.flatMap fun p => p.1.write ++ p.2)).Yields
        [.ok ⟨⟨1⟩, ⟨1⟩, [5, 7]⟩, .ok ⟨⟨2⟩, ⟨3⟩, []⟩] := by
  have hParts : ∀ p ∈ parcels, p.2.length = p.1.length.toNat ∧ p.1.length ≤ maxContentLength := by
    decide
  exact ⟨hParts, (yields_exact.2 parcels hParts _).2 rfl⟩

end Splitter

end ObjectStore
