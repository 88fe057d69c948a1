import ObjectStore.Migration.Conversion
import ObjectStore.Proofs.Handler.Lawful
import ObjectStore.Proofs.Record.Chunk

/-!
# Converted records

A converted record is made of one part for each current member, which stands
at the offset of that member. The part of a member with a source is what the
legacy record has at the offset of the source, so reading the member in the
converted record is reading the source in the legacy one.

## Main results

* `Conversion.make_ok`: where the members of a conversion come from.
* `Conversion.append_eq_ok`, `Conversion.append_error`: what is appended.
* `Conversion.convert_ok`: what a converted record is made of.
* `Access.holds_of_converted`: what a member of the converted record says.
-/

namespace ObjectStore

/-! ## Sources of members -/

namespace Matching

variable {matching : Matching} {legacy current : Definition} {source target : Member}

/-- The legacy member `source` is matched with the current member
`target`. -/
def Feeds (matching : Matching) (source target : Member) : Prop :=
  ∃ m ∈ matching.matched, m.source = source ∧ m.target = some target

/-- The first legacy member, in stored order, that is matched with a current
one. -/
def FirstSource (legacy : Definition) (matching : Matching) (source target : Member) : Prop :=
  ∃ before after, legacy.members = before ++ source :: after ∧ matching.Feeds source target ∧
    ∀ s ∈ before, ¬matching.Feeds s target

theorem matched_run {matcher : Matcher} (h : matcher.run legacy current = .ok matching) :
    ∃ all : List Match,
      matching.matched = legacy.members.filterMap fun m => all.find? (·.source = m) := by
  obtain ⟨explicit, -, h⟩ := bind_eq_ok.1 h
  cases h
  exact ⟨_, rfl⟩

/-- The first match of a target is that of its first source. -/
theorem find?_matched {all : List Match} {ms : List Member} {m : Match}
    (h : (ms.filterMap fun s => all.find? (·.source = s)).find? (·.target = some target) = some m) :
    ∃ before after, ms = before ++ m.source :: after ∧ m.target = some target ∧
      ∀ s ∈ before, ∀ other, all.find? (·.source = s) = some other →
        other.target ≠ some target := by
  induction ms with
  | nil => cases h
  | cons s rest ih =>
      cases hFind : all.find? (·.source = s) with
      | none =>
          rw [List.filterMap_cons] at h
          simp only [hFind] at h
          obtain ⟨before, after, rfl, hTarget, hBefore⟩ := ih h
          refine ⟨s :: before, after, rfl, hTarget, ?_⟩
          intro s' hs' other hOther
          rcases List.mem_cons.1 hs' with rfl | hIn
          · rw [hFind] at hOther
            cases hOther
          · exact hBefore s' hIn other hOther
      | some first =>
          rw [List.filterMap_cons] at h
          simp only [hFind] at h
          by_cases hFirst : first.target = some target
          · rw [List.find?_cons_of_pos (by simpa using hFirst)] at h
            cases h
            have hSource : m.source = s := by simpa using List.find?_some hFind
            exact ⟨[], rest, by rw [hSource]; rfl, hFirst, by simp⟩
          · rw [List.find?_cons_of_neg (by simpa using hFirst)] at h
            obtain ⟨before, after, rfl, hTarget, hBefore⟩ := ih h
            refine ⟨s :: before, after, rfl, hTarget, ?_⟩
            intro s' hs' other hOther
            rcases List.mem_cons.1 hs' with rfl | hIn
            · rw [hFind] at hOther
              cases hOther
              exact hFirst
            · exact hBefore s' hIn other hOther

theorem firstSource_of_find? {matcher : Matcher} (hRun : matcher.run legacy current = .ok matching)
    {m : Match} (h : matching.matched.find? (·.target = some target) = some m) :
    FirstSource legacy matching m.source target := by
  obtain ⟨all, hMatched⟩ := matched_run hRun
  have hIn := List.mem_of_find?_eq_some h
  rw [hMatched] at h
  obtain ⟨before, after, hMembers, hTarget, hBefore⟩ := find?_matched h
  refine ⟨before, after, hMembers, ⟨m, hIn, rfl, hTarget⟩, ?_⟩
  rintro s hs ⟨other, hOther, hSource, hOtherTarget⟩
  rw [hMatched] at hOther
  obtain ⟨s', -, hFind⟩ := List.mem_filterMap.1 hOther
  have hSame : other.source = s' := by simpa using List.find?_some hFind
  rw [hSource] at hSame
  rw [← hSame] at hFind
  exact hBefore s hs other hFind hOtherTarget

theorem not_feeds_of_find? (h : matching.matched.find? (·.target = some target) = none)
    (source : Member) : ¬matching.Feeds source target := by
  rintro ⟨m, hm, -, hTarget⟩
  have hNone := List.find?_eq_none.1 h m hm
  simp [hTarget] at hNone

end Matching

/-! ## Conversions -/

namespace Conversion

variable {c : Conversion} {matcher : Matcher} {matching : Matching} {legacy current : Definition}
  {target : Member} {source : MemberSource} {r : Record} {part : Bytes}

/-- Where a current member comes from: nowhere, or from its first source,
which is of its kind. -/
def Draws (legacy : Definition) (matching : Matching) (target : Member) (source : MemberSource) :
    Prop :=
  ((∀ s, ¬matching.Feeds s target) ∧ source = .blank target.kind) ∨
    ∃ s offset, matching.FirstSource legacy s target ∧ s.kind = target.kind ∧
      s.offset = some offset ∧ source = .copy offset target.kind

theorem sourceOf_ok (hRun : matcher.run legacy current = .ok matching)
    (h : sourceOf legacy current matching.matched target = .ok source) :
    Draws legacy matching target source := by
  unfold sourceOf at h
  cases hFind : matching.matched.find? (·.target = some target) with
  | none =>
      rw [hFind] at h
      cases h
      exact Or.inl ⟨Matching.not_feeds_of_find? hFind, rfl⟩
  | some m =>
      simp only [hFind] at h
      split at h
      · cases h
      · rename_i hKind
        obtain ⟨offset, hPlace, h⟩ := bind_eq_ok.1 h
        cases h
        refine Or.inr ⟨m.source, offset, Matching.firstSource_of_find? hRun hFind,
          Decidable.of_not_not hKind, ?_, rfl⟩
        unfold Member.place at hPlace
        split at hPlace
        · rename_i hOffset
          cases hPlace
          exact hOffset
        · cases hPlace

/-- Where the members of a conversion come from. -/
theorem make_ok (h : make matcher legacy current = .ok c) :
    c.source = legacy.id ∧ c.target = current.id ∧ ∃ matching,
      matcher.run legacy current = .ok matching ∧
        List.Forall₂ (Draws legacy matching) current.members c.members := by
  obtain ⟨hSource, hTarget⟩ := make_types h
  obtain ⟨matching, hRun, h⟩ := bind_eq_ok.1 h
  obtain ⟨members, hMembers, h⟩ := bind_eq_ok.1 h
  cases h
  refine ⟨hSource, hTarget, matching, hRun, ?_⟩
  exact (mapM_eq_ok.1 hMembers).imp fun _ _ => sourceOf_ok hRun

/-! ### What is appended -/

theorem content_eq_ok {content : Bytes} : c.content r = .ok content ↔
    r.type = c.source ∧ ∃ parts,
      List.Forall₂ (fun source part => memberBytes r source = .ok part) c.members parts ∧
        content = parts.flatten := by
  unfold Conversion.content
  by_cases hType : r.type = c.source
  · simp only [hType, ne_eq, not_true_eq_false, if_false, true_and]
    constructor
    · intro h
      obtain ⟨parts, hParts, h⟩ := bind_eq_ok.1 h
      cases h
      exact ⟨parts, mapM_eq_ok.1 (Access.orCorrupt_eq_ok.1 hParts), rfl⟩
    · rintro ⟨parts, hParts, rfl⟩
      exact bind_eq_ok.2 ⟨parts, Access.orCorrupt_eq_ok.2 (mapM_eq_ok.2 hParts), rfl⟩
  · simp only [hType, ne_eq, not_false_eq_true, if_true, false_and, iff_false]
    intro h
    cases h

theorem begin_content_eq_ok {type : TypeId} {object : ObjectId} {content front : Bytes} :
    Header.begin ⟨Word.ofNatSat content.length, type, object⟩ = .ok front ↔
      Chunk.Acceptable ⟨type, object, content⟩ ∧
        front = (Record.header ⟨type, object, content⟩).write :=
  @Chunk.begin_eq_ok ⟨type, object, content⟩ _ _ (Word.toNat_ofNatSat content.length)

/-- What is appended is one record. -/
theorem append_eq_ok {out out' : Bytes} : (c.append r).start out = (.ok (), out') ↔
    ∃ content, c.content r = .ok content ∧ Chunk.Acceptable ⟨c.target, r.object, content⟩ ∧
      out' = out ++ Record.encode ⟨c.target, r.object, content⟩ := by
  constructor
  · intro h
    obtain ⟨content, s, hRead, h⟩ := Attempt.start_bind_ok.1 h
    obtain ⟨hContent, rfl⟩ := Prod.mk.inj hRead
    obtain ⟨_, s, hFront, hBack⟩ := Attempt.start_bind_ok.1 h
    have hWritten := Attempt.start_modify_eq_ok.1 hFront
    obtain ⟨front, hBegin, rfl⟩ := map_eq_ok.1 hWritten
    obtain ⟨hAcceptable, rfl⟩ := begin_content_eq_ok.1 hBegin
    refine ⟨content, hContent, hAcceptable, ?_⟩
    rw [Record.encode, ← List.append_assoc]
    exact (Except.ok.inj (Attempt.start_modify_eq_ok.1 hBack)).symm
  · rintro ⟨content, hContent, hAcceptable, rfl⟩
    refine Attempt.start_bind_ok.2 ⟨content, out, Prod.ext hContent rfl, ?_⟩
    refine Attempt.start_bind_ok.2 ⟨(), _, Attempt.start_modify_eq_ok.2
      (map_eq_ok.2 ⟨_, begin_content_eq_ok.2 ⟨hAcceptable, rfl⟩, rfl⟩), ?_⟩
    rw [Attempt.start_modify_eq_ok, Record.encode, ← List.append_assoc]

/-- If nothing is appended, what was written before stays as it is. -/
theorem append_error {out out' : Bytes} {e : Error}
    (h : (c.append r).start out = (.error e, out')) : out' = out := by
  rcases Attempt.start_bind_error.1 h with hRead | ⟨content, s, hRead, h⟩
  · exact (Prod.mk.inj hRead).2.symm
  · obtain ⟨-, rfl⟩ := Prod.mk.inj hRead
    rcases Attempt.start_bind_error.1 h with hFront | ⟨_, s, -, hBack⟩
    · exact Attempt.start_modify_of_error hFront
    · -- Behind a header that was accepted nothing can fail.
      rw [Attempt.start_modify] at hBack
      cases hBack

theorem convert_eq_ok {bytes : Bytes} :
    c.convert r = .ok bytes ↔ (c.append r).start [] = (.ok (), bytes) := by
  unfold convert
  cases (c.append r).start [] with
  | mk result out =>
      cases result with
      | error e => simp
      | ok u => simp

/-- What a converted record is made of. -/
theorem convert_ok {bytes : Bytes} (h : c.convert r = .ok bytes) :
    r.type = c.source ∧ ∃ parts,
      List.Forall₂ (fun source part => memberBytes r source = .ok part) c.members parts ∧
        Chunk.Acceptable ⟨c.target, r.object, parts.flatten⟩ ∧
        bytes = Record.encode ⟨c.target, r.object, parts.flatten⟩ := by
  obtain ⟨content, hContent, hAcceptable, rfl⟩ := append_eq_ok.1 (convert_eq_ok.1 h)
  obtain ⟨hType, parts, hParts, rfl⟩ := content_eq_ok.1 hContent
  exact ⟨hType, parts, hParts, hAcceptable, rfl⟩

/-! ## Reading converted records -/

theorem length_slice {r : Record} {start length : Nat} {part : Bytes}
    (h : r.slice start length = .ok part) : part.length = length := by
  simp only [Record.slice] at h
  split at h
  · cases h
  · split at h
    · cases h
      rw [List.length_take, List.length_drop]
      omega
    · cases h

theorem fills_of_draws (hDraws : Draws legacy matching target source)
    (hBytes : memberBytes r source = .ok part) : Record.Fills target part := by
  intro hFixed
  rcases hDraws with ⟨-, rfl⟩ | ⟨s, offset, -, -, -, rfl⟩
  · simp only [memberBytes, hFixed, Bool.false_eq_true, if_false] at hBytes
    cases hBytes
    exact List.length_replicate
  · simp only [memberBytes, hFixed, Bool.false_eq_true, if_false] at hBytes
    exact length_slice hBytes

/-- The parts of a converted record stand at the offsets of the current
members. -/
theorem stands_of_draws {members : List MemberSource} {parts : List Bytes} {type : TypeId}
    {object : ObjectId} (hDraws : List.Forall₂ (Draws legacy matching) current.members members)
    (hParts : List.Forall₂ (fun source part => memberBytes r source = .ok part) members parts)
    (hFits : Record.Fits ⟨type, object, parts.flatten⟩) :
    List.Forall₂ (fun m part => Record.Stands ⟨type, object, parts.flatten⟩ m part ∧
      ∃ source, Draws legacy matching m source ∧ memberBytes r source = .ok part)
      current.members parts := by
  have hBoth : List.Forall₂ (fun m part => ∃ source, Draws legacy matching m source ∧
      memberBytes r source = .ok part) current.members parts := forall₂_comp hDraws hParts
  have hFills : List.Forall₂ Record.Fills current.members parts := by
    refine hBoth.imp ?_
    rintro m part ⟨source, hSource, hBytes⟩
    exact fills_of_draws hSource hBytes
  have hStands := @Record.stands_of_laidOut ⟨type, object, parts.flatten⟩ 0 _ _ [] hFits
    current.laidOut_members.1 hFills rfl rfl
  refine List.forall₂_iff_zip.2 ⟨hBoth.length_eq, ?_⟩
  intro m part hPair
  exact ⟨List.forall₂_zip hStands hPair, List.forall₂_zip hBoth hPair⟩

end Conversion

/-! ## Members of converted instances -/

namespace Access

variable {ι : Type} {access : Access ι} {x : ι} {lookup : Lookup} {r r' : Record}
  {offset offset' : Nat}

/-- The member of an instance is zero, false, empty or absent. -/
def IsBlank (access : Access ι) (x : ι) : Prop :=
  match access with
  | value kind get _ => kind.ofCode 0 = .ok (get x)
  | reference get _ => get x = none
  | bytes get _ => get x = []
  | text get _ => get x = ""
  | references get _ => get x = []

theorem wordAt_of_slice {part : Bytes} (h : r.slice offset 8 = .ok part) :
    r.readWord offset = .ok (Word.toWord part) := by
  have hLength := Conversion.length_slice h
  simp only [Record.slice] at h
  split at h
  · cases h
  · rename_i hMax
    split at h
    · cases h
      rw [Record.readWord, wordAt, if_neg hMax]
      simp only [hLength, if_true]
    · cases h

/-- A member that two records have in common says the same in both. -/
theorem Holds.transfer (h : access.Holds lookup r' offset' x)
    (hFixed : access.kind.isVariable = false → ∃ part,
      r'.slice offset' access.kind.minLength.toNat = .ok part ∧
        r.slice offset access.kind.minLength.toNat = .ok part)
    (hVariable : access.kind.isVariable = true → ∃ payload,
      r'.readVariable offset' = .ok payload ∧ r.readVariable offset = .ok payload) :
    access.Holds lookup r offset x := by
  cases access with
  | value kind get set =>
      obtain ⟨part, hNew, hOld⟩ := hFixed rfl
      obtain ⟨bytes, hSlice, hDecode⟩ := h
      rw [show (value kind get set).kind.minLength.toNat = kind.width from kind.toNat_width]
        at hNew hOld
      rw [hNew] at hSlice
      cases hSlice
      exact ⟨part, hOld, hDecode⟩
  | reference get set =>
      obtain ⟨part, hNew, hOld⟩ := hFixed rfl
      obtain ⟨id, hRead, hLookup⟩ := h
      have hNewWord := wordAt_of_slice hNew
      have hOldWord := wordAt_of_slice hOld
      rw [Record.readObjectId, hNewWord] at hRead
      exact ⟨id, by rw [Record.readObjectId, hOldWord, hRead], hLookup⟩
  | bytes get set =>
      obtain ⟨payload, hNew, hOld⟩ := hVariable rfl
      have hRead : r'.readVariable offset' = .ok (get x) := h
      show r.readVariable offset = .ok (get x)
      rw [hOld, ← hNew, hRead]
  | text get set =>
      obtain ⟨payload, hNew, hOld⟩ := hVariable rfl
      obtain ⟨payload', hRead, hDecode⟩ := h
      rw [hNew] at hRead
      cases hRead
      exact ⟨payload, hOld, hDecode⟩
  | references get set =>
      obtain ⟨payload, hNew, hOld⟩ := hVariable rfl
      obtain ⟨ids, hRead, hResolve⟩ := h
      refine ⟨ids, ?_, hResolve⟩
      rw [Record.readObjectIds, hNew] at hRead
      rw [Record.readObjectIds, hOld]
      simp only [bind, Except.bind] at hRead ⊢
      split at hRead
      · rename_i hWhole
        cases hRead
        rw [if_pos hWhole]
        rfl
      · cases hRead

theorem decode_replicate (n : Nat) : Word.decode (List.replicate n 0) = 0 := by
  induction n with
  | zero => rfl
  | succ n ih =>
      rw [List.replicate_succ, Word.decode, ih]
      rfl

/-- A member whose part is blank is blank in the instance. -/
theorem isBlank_of_holds {m : Member} {position : UInt64} {part : Bytes}
    (hKind : m.kind = access.kind) (hStands : r'.Stands m part) (hFits : r'.Fits)
    (hOffset : m.offset = some position) (hNull : lookup ObjectId.null = .ok none)
    (hBytes : Conversion.memberBytes r (.blank access.kind) = .ok part)
    (h : access.Holds lookup r' position.toNat x) : access.IsBlank x := by
  have hPart : part = if access.kind.isVariable then writeVariable []
      else List.replicate access.kind.minLength.toNat 0 := (Except.ok.inj hBytes).symm
  cases access with
  | value kind get set =>
      obtain ⟨bytes, hSlice, hDecode⟩ := h
      have hZero : part = List.replicate kind.width 0 := by
        rw [← kind.toNat_width]
        exact hPart
      have hRead := hStands.slice hFits hOffset
      rw [hZero, List.length_replicate] at hRead
      rw [hRead] at hSlice
      cases hSlice
      rw [PrimitiveKind.decode, if_pos List.length_replicate, decode_replicate] at hDecode
      exact hDecode
  | reference get set =>
      obtain ⟨id, hRead, hLookup⟩ := h
      have hBlank : List.replicate FieldKind.reference.minLength.toNat 0 =
          Word.ofWord ObjectId.null.value := by decide
      have hZero : part = Word.ofWord ObjectId.null.value := hPart.trans hBlank
      rw [hZero] at hStands
      rw [hStands.readObjectId hFits hOffset] at hRead
      cases hRead
      rw [hNull] at hLookup
      exact (Except.ok.inj hLookup).symm
  | bytes get set =>
      rw [show part = writeVariable [] from hPart] at hStands
      have hRead := hStands.readVariable hFits (hKind ▸ rfl) hOffset
      have hHolds : r'.readVariable position.toNat = .ok (get x) := h
      rw [hRead] at hHolds
      exact (Except.ok.inj hHolds).symm
  | text get set =>
      obtain ⟨payload, hRead', hDecode⟩ := h
      rw [show part = writeVariable [] from hPart] at hStands
      have hRead := hStands.readVariable hFits (hKind ▸ rfl) hOffset
      rw [hRead] at hRead'
      cases hRead'
      have hEmpty : Text.decode [] = .ok "" := rfl
      rw [hEmpty] at hDecode
      exact (Except.ok.inj hDecode).symm
  | references get set =>
      obtain ⟨ids, hRead', hResolve⟩ := h
      rw [show part = writeObjectIds [] from hPart] at hStands
      have hRead := hStands.readObjectIds hFits (hKind ▸ rfl) hOffset
      rw [hRead] at hRead'
      cases hRead'
      exact (Except.ok.inj hResolve).symm

/-- A member of a converted record says what its source says in the legacy
record, or is blank. -/
theorem holds_of_converted {m : Member} {position : UInt64} {part : Bytes} {source : MemberSource}
    {legacy : Definition} {matching : Matching} (hKind : m.kind = access.kind)
    (hStands : r'.Stands m part) (hFits : r'.Fits) (hOffset : m.offset = some position)
    (hNull : lookup ObjectId.null = .ok none)
    (hDraws : Conversion.Draws legacy matching m source)
    (hBytes : Conversion.memberBytes r source = .ok part)
    (h : access.Holds lookup r' position.toNat x) :
    ((∀ s, ¬matching.Feeds s m) ∧ access.IsBlank x) ∨
      ∃ s place, matching.FirstSource legacy s m ∧ s.kind = access.kind ∧
        s.offset = some place ∧ access.Holds lookup r place.toNat x := by
  rcases hDraws with ⟨hNone, rfl⟩ | ⟨s, place, hFirst, hSame, hPlace, rfl⟩
  · rw [hKind] at hBytes
    exact Or.inl ⟨hNone, isBlank_of_holds hKind hStands hFits hOffset hNull hBytes h⟩
  · refine Or.inr ⟨s, place, hFirst, hSame.trans hKind, hPlace, h.transfer ?_ ?_⟩
    · intro hFixed
      rw [← hKind] at hFixed ⊢
      simp only [Conversion.memberBytes, hFixed, Bool.false_eq_true, if_false] at hBytes
      have hRead := hStands.slice hFits hOffset
      rw [Conversion.length_slice hBytes] at hRead
      exact ⟨part, hRead, hBytes⟩
    · intro hVariable
      rw [← hKind] at hVariable
      simp only [Conversion.memberBytes, hVariable, if_true] at hBytes
      obtain ⟨payload, hRead, rfl⟩ := map_eq_ok.1 hBytes
      exact ⟨payload, hStands.readVariable hFits hVariable hOffset, hRead⟩

end Access

end ObjectStore
