import ObjectStore.Proofs.Migration.Recordwise
import ObjectStore.Proofs.Record.Canonical
import ObjectStore.Refactoring.NameSimilarity

/-!
# Converting field by field

The layouts on the two sides of a conversion have nothing to do with each
other: members are in another order, at other offsets, and the variable one
may be another one. Still every current member reads, at its own offset, what
the first legacy member that is matched with it reads at its own, or nothing
but zeros. This is true of one record only. A conversion appends this record,
or else nothing.

## Main results

* `Record.reads_iff`: what is read from a member is what stands there.
* `Conversion.Translates.unique`: the record that is told by what its members
  read.
* `Conversion.memberBytes_eq_ok`: the part of a current member is the written
  form of what its source reads.
* `Conversion.append_exact`: what a conversion appends.
-/

namespace ObjectStore

/-! ## Reading a member -/

/-- The form in which a kind is written: a payload has its length in front. -/
def FieldKind.written (kind : FieldKind) (bytes : Bytes) : Bytes :=
  if kind.isVariable then writeVariable bytes else bytes

/-- An empty payload or, for a fixed kind, zeros. -/
def FieldKind.blank (kind : FieldKind) : Bytes :=
  if kind.isVariable then [] else List.replicate kind.minLength.toNat 0

namespace Record

variable {r : Record} {m : Member} {kind : FieldKind} {offset : UInt64} {bytes bytes' : Bytes}

/-- The payload of a variable kind, or the bytes of a fixed one. -/
def readAs (r : Record) (kind : FieldKind) (offset : UInt64) : Except Corruption Bytes :=
  if kind.isVariable then r.readVariable offset.toNat
  else r.slice offset.toNat kind.minLength.toNat

/-- What a member of the record reads as at its own offset. -/
def Reads (r : Record) (m : Member) (bytes : Bytes) : Prop :=
  ∃ offset, m.offset = some offset ∧ r.readAs m.kind offset = .ok bytes

theorem Reads.unique (h : r.Reads m bytes) (h' : r.Reads m bytes') : bytes = bytes' := by
  obtain ⟨offset, hOffset, hRead⟩ := h
  obtain ⟨offset', hOffset', hRead'⟩ := h'
  cases hOffset.symm.trans hOffset'
  exact Except.ok.inj (hRead.symm.trans hRead')

/-- What is read from a member is what stands there. -/
theorem reads_iff (hFits : r.Fits) :
    r.Reads m bytes ↔ r.Stands m (m.kind.written bytes) ∧ Fills m (m.kind.written bytes) := by
  unfold Reads readAs
  cases hKind : m.kind.isVariable with
  | false =>
      simp only [FieldKind.written, hKind, Bool.false_eq_true, if_false]
      constructor
      · rintro ⟨offset, hOffset, hSlice⟩
        exact ⟨stands_of_slice hKind hOffset hSlice, fun _ => Conversion.length_slice hSlice⟩
      · rintro ⟨hStands, hFills⟩
        obtain ⟨offset, -, hOffset⟩ := hStands.place
        refine ⟨offset, hOffset, ?_⟩
        rw [← hFills hKind]
        exact hStands.slice hFits hOffset
  | true =>
      simp only [FieldKind.written, hKind, if_true]
      constructor
      · rintro ⟨offset, hOffset, hRead⟩
        refine ⟨stands_of_readVariable hOffset hRead, fun hFixed => ?_⟩
        cases hKind.symm.trans hFixed
      · rintro ⟨hStands, -⟩
        obtain ⟨offset, -, hOffset⟩ := hStands.place
        exact ⟨offset, hOffset, hStands.readVariable hFits hKind hOffset⟩

end Record

/-! ## What a member is to read -/

namespace Matching

variable {matching : Matching} {legacy : Definition} {s s' m : Member}

theorem FirstSource.feeds (h : FirstSource legacy matching s m) : matching.Feeds s m := by
  obtain ⟨-, -, -, hFeeds, -⟩ := h
  exact hFeeds

/-- A member has one first source. -/
theorem FirstSource.unique (h : FirstSource legacy matching s m)
    (h' : FirstSource legacy matching s' m) : s = s' := by
  obtain ⟨before, after, hMembers, hFeeds, hBefore⟩ := h
  obtain ⟨before', after', hMembers', hFeeds', hBefore'⟩ := h'
  -- Of two first sources, neither stands in front of the other.
  rcases List.append_eq_append_iff.1 (hMembers.symm.trans hMembers') with
    ⟨between, rfl, hRest⟩ | ⟨between, rfl, hRest⟩
  · cases between with
    | nil => exact (List.cons.inj hRest).1
    | cons first between =>
        cases (List.cons.inj hRest).1
        exact absurd hFeeds (hBefore' s (by simp))
  · cases between with
    | nil => exact (List.cons.inj hRest).1.symm
    | cons first between =>
        cases (List.cons.inj hRest).1
        exact absurd hFeeds' (hBefore s' (by simp))

end Matching

namespace Conversion

variable {c : Conversion} {matcher : Matcher} {matching : Matching} {legacy current : Definition}
  {m : Member} {source : MemberSource} {r r' : Record} {part bytes bytes' : Bytes}

/-- What a current member is to read: what its first source reads in the
legacy record, or nothing but zeros if it has no source. -/
inductive Supplied (legacy : Definition) (matching : Matching) (r : Record) (m : Member) :
    Bytes → Prop where
  | copied {s : Member} {bytes : Bytes} (first : matching.FirstSource legacy s m)
      (reads : r.Reads s bytes) : Supplied legacy matching r m bytes
  | blank (none : ∀ s, ¬matching.Feeds s m) : Supplied legacy matching r m m.kind.blank

/-- The record `r'` of the current type says what the legacy record `r`
does. -/
structure Translates (legacy current : Definition) (matching : Matching) (r r' : Record) :
    Prop where
  type : r'.type = current.id
  object : r'.object = r.object
  /-- Every reader finds this record, and no other one. -/
  single : Chunk.split r'.encode = ⟨[r'], none⟩
  /-- The header states the length of the content. -/
  stated : r'.length.toNat = r'.content.length
  accepted : current.acceptsLength r'.length = true
  members : ∀ m ∈ current.members, ∃ bytes, Supplied legacy matching r m bytes ∧ r'.Reads m bytes

theorem Translates.acceptable (h : Translates legacy current matching r r') :
    Chunk.Acceptable r' := by
  refine @Chunk.acceptable_of_mem_split r'.encode r' ?_
  rw [h.single]
  exact List.mem_singleton.2 rfl

/-- It is determined what a member is to read. -/
theorem Supplied.unique (h : Supplied legacy matching r m bytes)
    (h' : Supplied legacy matching r m bytes') : bytes = bytes' := by
  cases h with
  | copied hFirst hReads =>
      cases h' with
      | copied hFirst' hReads' =>
          cases hFirst.unique hFirst'
          exact hReads.unique hReads'
      | blank hNone => exact absurd hFirst.feeds (hNone _)
  | blank hNone =>
      cases h' with
      | copied hFirst _ => exact absurd hFirst.feeds (hNone _)
      | blank _ => rfl

/-- No other record says what the legacy record does. -/
theorem Translates.unique {r'' : Record} (h : Translates legacy current matching r r')
    (h' : Translates legacy current matching r r'') : r' = r'' := by
  have hFits := Chunk.fits_of_acceptable h.acceptable
  have hFits' := Chunk.fits_of_acceptable h'.acceptable
  obtain ⟨parts, hParts⟩ : ∃ parts, List.Forall₂ (fun m part =>
      (r'.Stands m part ∧ Record.Fills m part) ∧ r''.Stands m part) current.members parts := by
    refine forall₂_of_exists fun m hm => ?_
    obtain ⟨bytes, hSupplied, hReads⟩ := h.members m hm
    obtain ⟨bytes', hSupplied', hReads'⟩ := h'.members m hm
    cases hSupplied.unique hSupplied'
    exact ⟨m.kind.written bytes, (Record.reads_iff hFits).1 hReads,
      ((Record.reads_iff hFits').1 hReads').1⟩
  have hFills := hParts.imp fun _ _ hPart => hPart.1.2
  have hContent := Definition.content_of_stands hFits h.accepted hFills
    (hParts.imp fun _ _ hPart => hPart.1.1)
  have hContent' := Definition.content_of_stands hFits' h'.accepted hFills
    (hParts.imp fun _ _ hPart => hPart.2)
  calc r' = ⟨current.id, r.object, parts.flatten⟩ := by rw [← h.type, ← h.object, ← hContent]
    _ = r'' := by rw [← h'.type, ← h'.object, ← hContent']

/-! ## Parts of converted records -/

theorem memberBytes_copy {offset : UInt64} {kind : FieldKind} :
    memberBytes r (.copy offset kind) = (r.readAs kind offset).map kind.written := by
  cases hKind : kind.isVariable with
  | false =>
      have hWritten : kind.written = id := funext fun bytes => by
        rw [FieldKind.written, hKind]
        rfl
      rw [memberBytes, Record.readAs, hKind, hWritten]
      exact (congrFun Except.map_id _).symm
  | true =>
      have hWritten : kind.written = writeVariable := funext fun bytes => by
        rw [FieldKind.written, hKind]
        rfl
      rw [memberBytes, Record.readAs, hKind, hWritten]
      rfl

theorem memberBytes_blank {kind : FieldKind} :
    memberBytes r (.blank kind) = .ok (kind.written kind.blank) := by
  rw [memberBytes, FieldKind.written, FieldKind.blank]
  cases kind.isVariable <;> rfl

/-- The part of a current member is the written form of what it is to
read. -/
theorem memberBytes_eq_ok (hDraws : Draws legacy matching m source) :
    memberBytes r source = .ok part ↔
      ∃ bytes, Supplied legacy matching r m bytes ∧ part = m.kind.written bytes := by
  rcases hDraws with ⟨hNone, rfl⟩ | ⟨s, offset, hFirst, hKind, hOffset, rfl⟩
  · rw [memberBytes_blank, Except.ok.injEq]
    constructor
    · rintro rfl
      exact ⟨m.kind.blank, .blank hNone, rfl⟩
    · rintro ⟨bytes, hSupplied, rfl⟩
      cases hSupplied with
      | copied hFirst _ => exact absurd hFirst.feeds (hNone _)
      | blank _ => rfl
  · rw [memberBytes_copy, map_eq_ok]
    constructor
    · rintro ⟨bytes, hRead, rfl⟩
      exact ⟨bytes, .copied hFirst ⟨offset, hOffset, hKind ▸ hRead⟩, rfl⟩
    · rintro ⟨bytes, hSupplied, rfl⟩
      cases hSupplied with
      | copied hFirst' hReads =>
          obtain rfl := hFirst.unique hFirst'
          obtain ⟨offset', hOffset', hRead⟩ := hReads
          cases hOffset.symm.trans hOffset'
          exact ⟨bytes, hKind ▸ hRead, rfl⟩
      | blank hNone => exact absurd hFirst.feeds (hNone s)

/-- A current member reads in the converted record what it is to read. -/
theorem exists_supplied {parts : List Bytes} {members : List MemberSource} {type : TypeId}
    {object : ObjectId} (hDraws : List.Forall₂ (Draws legacy matching) current.members members)
    (hParts : List.Forall₂ (fun source part => memberBytes r source = .ok part) members parts)
    (hFits : Record.Fits ⟨type, object, parts.flatten⟩) (hm : m ∈ current.members) :
    ∃ bytes, Supplied legacy matching r m bytes ∧
      Record.Reads ⟨type, object, parts.flatten⟩ m bytes := by
  obtain ⟨part, -, hStands, source, hSource, hBytes⟩ :=
    forall₂_exists_right (stands_of_draws hDraws hParts hFits) hm
  obtain ⟨bytes, hSupplied, rfl⟩ := (memberBytes_eq_ok hSource).1 hBytes
  exact ⟨bytes, hSupplied, (Record.reads_iff hFits).2 ⟨hStands, fills_of_draws hSource hBytes⟩⟩

/-- A record that reads what it is to read is made of what the conversion
draws. -/
theorem exists_parts {members : List MemberSource}
    (hDraws : List.Forall₂ (Draws legacy matching) current.members members) (hFits : r'.Fits)
    (hAccepted : current.acceptsLength r'.length = true)
    (hMembers : ∀ m ∈ current.members, ∃ bytes,
      Supplied legacy matching r m bytes ∧ r'.Reads m bytes) :
    ∃ parts, List.Forall₂ (fun source part => memberBytes r source = .ok part) members parts ∧
      r'.content = parts.flatten := by
  obtain ⟨parts, hParts⟩ : ∃ parts, List.Forall₂ (fun m part => ∃ bytes,
      part = m.kind.written bytes ∧ Supplied legacy matching r m bytes ∧ r'.Reads m bytes)
      current.members parts := by
    refine forall₂_of_exists fun m hm => ?_
    obtain ⟨bytes, hBoth⟩ := hMembers m hm
    exact ⟨m.kind.written bytes, bytes, rfl, hBoth⟩
  refine ⟨parts, (forall₂_comp hDraws.flip hParts).imp ?_, ?_⟩
  · rintro source part ⟨m, hSource, bytes, hPart, hSupplied, -⟩
    exact (memberBytes_eq_ok hSource).2 ⟨bytes, hSupplied, hPart⟩
  · have hStands : List.Forall₂ (fun m part => r'.Stands m part ∧ Record.Fills m part)
        current.members parts := by
      refine hParts.imp ?_
      rintro m part ⟨bytes, rfl, -, hReads⟩
      exact (Record.reads_iff hFits).1 hReads
    exact Definition.content_of_stands hFits hAccepted (hStands.imp fun _ _ h => h.2)
      (hStands.imp fun _ _ h => h.1)

/-! ## Main statement -/

/--
A conversion appends exactly one record: the one of the current type and of
the same object in which every current member reads, at its own offset, what
the first legacy member that is matched with it reads in the legacy record, or
nothing but zeros if none is. If there is no such record, what was written
before stays as it is.
-/
theorem append_exact {matcher : Matcher} {legacy current : Definition} {c : Conversion}
    (hMake : make matcher legacy current = .ok c) :
    ∃ matching, matcher.run legacy current = .ok matching ∧
      (∀ m ∈ current.members, ∀ s, matching.FirstSource legacy s m → s.kind = m.kind) ∧
      ∀ (r : Record) (out : Bytes),
        (∀ out', (c.append r).start out = (.ok (), out') ↔
          r.type = legacy.id ∧ ∃ r', Translates legacy current matching r r' ∧
            out' = out ++ r'.encode) ∧
        ∀ e out', (c.append r).start out = (.error e, out') → out' = out := by
  obtain ⟨hSource, hTarget, matching, hRun, hDraws⟩ := make_ok hMake
  refine ⟨matching, hRun, ?_, fun r out => ⟨fun out' => ?_, fun e out' => append_error⟩⟩
  · intro m hm s hFirst
    obtain ⟨source, -, hDrawn⟩ := forall₂_exists_right hDraws hm
    rcases hDrawn with ⟨hNone, -⟩ | ⟨s', offset, hFirst', hKind, -⟩
    · exact absurd hFirst.feeds (hNone s)
    · rw [hFirst.unique hFirst', hKind]
  · rw [append_eq_ok, hTarget]
    constructor
    · rintro ⟨content, hContent, hAcceptable, rfl⟩
      obtain ⟨hType, parts, hParts, rfl⟩ := content_eq_ok.1 hContent
      have hFits := Chunk.fits_of_acceptable hAcceptable
      refine ⟨hType.trans hSource, ⟨current.id, r.object, parts.flatten⟩, ⟨rfl, rfl, ?_,
        Record.toNat_length hFits, acceptsLength_of_draws hDraws hParts hAcceptable,
        fun m hm => exists_supplied hDraws hParts hFits hm⟩, rfl⟩
      have hSplit := Chunk.split_join (List.forall_mem_singleton.2 hAcceptable)
      rwa [Chunk.join, List.flatMap_singleton] at hSplit
    · rintro ⟨hType, r', hTranslates, rfl⟩
      have hAcceptable := hTranslates.acceptable
      obtain ⟨parts, hParts, hContent⟩ := exists_parts hDraws
        (Chunk.fits_of_acceptable hAcceptable) hTranslates.accepted hTranslates.members
      have hRecord : r' = ⟨current.id, r.object, r'.content⟩ := by
        rw [← hTranslates.type, ← hTranslates.object]
      rw [hRecord] at hAcceptable
      refine ⟨r'.content, content_eq_ok.2 ⟨hType.trans hSource.symm, parts, hParts, hContent⟩,
        hAcceptable, ?_⟩
      rw [← hRecord]

/-- The rank of a sailor, which no former version knows. -/
def rank : Member := ⟨.unqualified "rank", .primitive .u16, "u16", some 0⟩

/-- The years of a sailor. -/
def years : Member := ⟨.unqualified "years", .primitive .u32, "u32", some 2⟩

/-- The name of a sailor. -/
def name : Member := ⟨.unqualified "name", .text, "text", some 6⟩

/-- Sailors have a rank, an age and a name. -/
def sailor : Definition where
  id := ⟨3010⟩
  name := "Sailor"
  runtime := none
  members := [rank, years, name]
  laidOut := ⟨[.ofKind (.unqualified "rank") (.primitive .u16),
    .ofKind (.unqualified "years") (.primitive .u32), .ofKind (.unqualified "name") .text], _, rfl⟩

/-- The age of a former sailor. -/
def age : Member := ⟨.unqualified "age", .primitive .u32, "u32", some 0⟩

/-- The mate of a former sailor. -/
def mate : Member := ⟨.unqualified "mate", .reference, "ref", some 4⟩

/-- The name of a former sailor. -/
def formerName : Member := ⟨.unqualified "name", .text, "text", some 12⟩

/-- Sailors as they were before. -/
def formerSailor : Definition where
  id := ⟨3000⟩
  name := "Sailor"
  runtime := none
  members := [age, mate, formerName]
  laidOut := ⟨[.ofKind (.unqualified "age") (.primitive .u32),
    .ofKind (.unqualified "mate") .reference, .ofKind (.unqualified "name") .text], _, rfl⟩

/-- The age is counted in years now, and mates are not of interest any
more. -/
def sailorMatcher : Matcher :=
  .of (.ofTable ((RenameTable.empty.insert "Sailor#age" (some "#years")).insert "#mate" none))
    TypeSimilarity.empty

/-- Ann is 41 years old and has a mate. -/
def ann : Record :=
  ⟨⟨3000⟩, ⟨5⟩, [41, 0, 0, 0, 9, 0, 0, 0, 0, 0, 0, 0, 3, 0, 0, 0, 0, 0, 0, 0, 65, 110, 110]⟩

/-- Ann as a current version knows her. -/
def convertedAnn : Record :=
  ⟨⟨3010⟩, ⟨5⟩, [0, 0, 41, 0, 0, 0, 3, 0, 0, 0, 0, 0, 0, 0, 65, 110, 110]⟩

theorem append_exact_sailor : ∃ c matching,
    make sailorMatcher formerSailor sailor = .ok c ∧
      sailorMatcher.run formerSailor sailor = .ok matching ∧
      (c.append ann).start [] = (.ok (), convertedAnn.encode) ∧
      Translates formerSailor sailor matching ann convertedAnn ∧
      convertedAnn.Reads years [41, 0, 0, 0] := by
  obtain ⟨c, hMake, hAppend⟩ : ∃ c, make sailorMatcher formerSailor sailor = .ok c ∧
      (c.append ann).start [] = (.ok (), convertedAnn.encode) := ⟨_, rfl, rfl⟩
  obtain ⟨matching, hRun, -, hExact⟩ := append_exact hMake
  obtain ⟨-, r', hTranslates, hEncode⟩ := ((hExact ann []).1 _).1 hAppend
  have hAcceptable : Chunk.Acceptable convertedAnn := by
    show 17 ≤ maxContentLength.toNat
    decide
  obtain rfl : r' = convertedAnn :=
    Chunk.encode_inj hTranslates.acceptable hAcceptable hEncode.symm
  exact ⟨c, matching, hMake, hRun, hAppend, hTranslates, 2, rfl, rfl⟩

end Conversion

end ObjectStore
