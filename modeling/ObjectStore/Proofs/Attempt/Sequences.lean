import Mathlib.Data.List.Forall2
import Mathlib.Data.List.Nodup
import ObjectStore.Attempt

/-!
# Results of sequences

Operations are put together from steps, and most steps run over a list. This
module says what the result of such a sequence tells about its steps, for
computations that may fail and for attempts on a state.

## Main results

* `bind_eq_ok`, `Attempt.start_bind_ok`, `Attempt.start_bind_error`: a
  sequence of two steps taken apart.
* `mapM_eq_ok`: a pass over a list succeeds exactly if every step does.
* `mapM_eq_error_iff`: a pass over a list ends with the first error.
* `Attempt.keeps_mapM`, `Attempt.keeps_forM`: what every step of a pass
  keeps, the pass keeps, also when it fails half-way.
-/

namespace ObjectStore

variable {σ τ α β : Type}

/-! ## Lists side by side -/

theorem forall₂_exists_left {R : α → β → Prop} {as : List α} {bs : List β}
    (h : List.Forall₂ R as bs) {b : β} (hb : b ∈ bs) : ∃ a ∈ as, R a b := by
  induction h with
  | nil => cases hb
  | @cons a first _ _ hHead _ ih =>
      rcases List.mem_cons.1 hb with rfl | hIn
      · exact ⟨a, List.mem_cons_self, hHead⟩
      · obtain ⟨a', ha', hR⟩ := ih hIn
        exact ⟨a', List.mem_cons_of_mem _ ha', hR⟩

theorem forall₂_exists_right {R : α → β → Prop} {as : List α} {bs : List β}
    (h : List.Forall₂ R as bs) {a : α} (ha : a ∈ as) : ∃ b ∈ bs, R a b :=
  forall₂_exists_left h.flip ha

theorem forall₂_of_exists {R : α → β → Prop} {as : List α} (h : ∀ a ∈ as, ∃ b, R a b) :
    ∃ bs, List.Forall₂ R as bs := by
  induction as with
  | nil => exact ⟨[], List.Forall₂.nil⟩
  | cons a rest ih =>
      obtain ⟨b, hHead⟩ := h a List.mem_cons_self
      obtain ⟨bs, hTail⟩ := ih fun a' ha' => h a' (List.mem_cons_of_mem _ ha')
      exact ⟨b :: bs, List.Forall₂.cons hHead hTail⟩

theorem forall₂_comp {γ : Type} {R : α → β → Prop} {S : β → γ → Prop} {as : List α} {bs : List β}
    {cs : List γ} (h : List.Forall₂ R as bs) (h' : List.Forall₂ S bs cs) :
    List.Forall₂ (fun a c => ∃ b, R a b ∧ S b c) as cs := by
  induction h generalizing cs with
  | nil =>
      cases h'
      exact List.Forall₂.nil
  | cons hHead _ ih =>
      cases h' with
      | cons hHead' hTail' => exact List.Forall₂.cons ⟨_, hHead, hHead'⟩ (ih hTail')

theorem map_eq_of_forall₂ {γ : Type} {f : α → γ} {g : β → γ} {as : List α} {bs : List β}
    (h : List.Forall₂ (fun a b => f a = g b) as bs) : as.map f = bs.map g := by
  induction h with
  | nil => rfl
  | cons hHead _ ih => rw [List.map_cons, List.map_cons, hHead, ih]

/-! ## Finding by a key -/

/-- An element is found by its key, if no other one has that key. -/
theorem find?_key {key : α → β} [DecidableEq β] {as : List α} {a : α} {b : β}
    (hKeys : (as.map key).Nodup) : as.find? (key · = b) = some a ↔ a ∈ as ∧ key a = b := by
  constructor
  · intro h
    exact ⟨List.mem_of_find?_eq_some h, by simpa using List.find?_some h⟩
  · rintro ⟨ha, rfl⟩
    obtain ⟨found, hFind⟩ := Option.isSome_iff_exists.1
      (List.find?_isSome.2 ⟨a, ha, decide_eq_true rfl⟩ : (as.find? (key · = key a)).isSome)
    have hSame : key found = key a := by simpa using List.find?_some hFind
    rw [hFind, List.inj_on_of_nodup_map hKeys (List.mem_of_find?_eq_some hFind) ha hSame]

/-! ## Computations that may fail -/

section

variable {ε : Type}

theorem bind_eq_ok {first : Except ε α} {second : α → Except ε β} {b : β} :
    (first >>= second) = .ok b ↔ ∃ a, first = .ok a ∧ second a = .ok b := by
  cases first with
  | error e => simp [bind, Except.bind]
  | ok a => simp [bind, Except.bind]

theorem map_eq_ok {first : Except ε α} {f : α → β} {b : β} :
    first.map f = .ok b ↔ ∃ a, first = .ok a ∧ f a = b := by
  cases first with
  | error e => simp [Except.map]
  | ok a => simp [Except.map]

theorem map_eq_error {first : Except ε α} {f : α → β} {e : ε} :
    first.map f = .error e ↔ first = .error e := by
  cases first with
  | error e' => simp [Except.map]
  | ok a => simp [Except.map]

theorem mapM_eq_ok {f : α → Except ε β} {as : List α} {bs : List β} :
    as.mapM f = .ok bs ↔ List.Forall₂ (fun a b => f a = .ok b) as bs := by
  induction as generalizing bs with
  | nil => simp [pure, Except.pure, eq_comm]
  | cons a rest ih =>
      rw [List.mapM_cons, bind_eq_ok]
      constructor
      · rintro ⟨b, hHead, hRest⟩
        obtain ⟨bs', hTail, hEq⟩ := bind_eq_ok.1 hRest
        cases hEq
        exact List.Forall₂.cons hHead (ih.1 hTail)
      · intro h
        cases h with
        | cons hHead hTail =>
            exact ⟨_, hHead, bind_eq_ok.2 ⟨_, ih.2 hTail, rfl⟩⟩

/-- A pass over a list ends with the first error of a step. -/
theorem mapM_eq_error_iff {f : α → Except ε β} {as : List α} {e : ε} :
    as.mapM f = .error e ↔ ∃ before a after, as = before ++ a :: after ∧ f a = .error e ∧
      ∀ a' ∈ before, ∃ b, f a' = .ok b := by
  induction as with
  | nil => simp [pure, Except.pure]
  | cons a rest ih =>
      rw [List.mapM_cons]
      cases hHead : f a with
      | error e' =>
          constructor
          · intro h
            cases h
            exact ⟨[], a, rest, rfl, hHead, by simp⟩
          · rintro ⟨before, a', after, hSplit, hError, hBefore⟩
            cases before with
            | nil =>
                cases hSplit
                cases hHead.symm.trans hError
                rfl
            | cons first before =>
                cases hSplit
                obtain ⟨b, hOk⟩ := hBefore a List.mem_cons_self
                cases hHead.symm.trans hOk
      | ok b =>
          have hPass : (Except.ok b >>= fun b => rest.mapM f >>= fun bs => pure (b :: bs)) =
              .error e ↔ rest.mapM f = .error e := by
            cases rest.mapM f with
            | error e' => rfl
            | ok bs =>
                constructor
                · intro h
                  cases h
                · intro h
                  cases h
          rw [hPass, ih]
          constructor
          · rintro ⟨before, a', after, rfl, hError, hBefore⟩
            exact ⟨a :: before, a', after, rfl, hError,
              List.forall_mem_cons.2 ⟨⟨b, hHead⟩, hBefore⟩⟩
          · rintro ⟨before, a', after, hSplit, hError, hBefore⟩
            cases before with
            | nil =>
                cases hSplit
                cases hHead.symm.trans hError
            | cons first before =>
                cases hSplit
                exact ⟨before, a', after, rfl, hError, (List.forall_mem_cons.1 hBefore).2⟩

/-- A pass over a list fails because one of its steps does. -/
theorem mapM_eq_error {f : α → Except ε β} {as : List α} {e : ε} (h : as.mapM f = .error e) :
    ∃ a ∈ as, f a = .error e := by
  obtain ⟨before, a, after, rfl, hError, -⟩ := mapM_eq_error_iff.1 h
  exact ⟨a, by simp, hError⟩

theorem forM_cons {m : Type → Type} [Monad m] (f : α → m PUnit) (a : α) (as : List α) :
    (a :: as).forM f = f a >>= fun _ => as.forM f := rfl

theorem forM_eq_ok {f : α → Except ε PUnit} {as : List α} :
    as.forM f = .ok () ↔ ∀ a ∈ as, f a = .ok () := by
  induction as with
  | nil => simp [List.forM, pure, Except.pure]
  | cons a rest ih =>
      rw [forM_cons, bind_eq_ok]
      constructor
      · rintro ⟨_, hHead, hTail⟩ a' ha'
        rcases List.mem_cons.1 ha' with rfl | hIn
        · exact hHead
        · exact ih.1 hTail a' hIn
      · intro h
        exact ⟨(), h a List.mem_cons_self,
          ih.2 fun a' ha' => h a' (List.mem_cons_of_mem _ ha')⟩

/-- A pass over a list fails because one of its steps does. -/
theorem forM_eq_error {f : α → Except ε Unit} {as : List α} {e : ε} (h : as.forM f = .error e) :
    ∃ a ∈ as, f a = .error e := by
  induction as with
  | nil => cases h
  | cons a rest ih =>
      rw [forM_cons] at h
      cases hHead : f a with
      | error e' =>
          rw [hHead] at h
          cases h
          exact ⟨a, List.mem_cons_self, hHead⟩
      | ok _ =>
          rw [hHead] at h
          obtain ⟨a', ha', hError⟩ := ih h
          exact ⟨a', List.mem_cons_of_mem _ ha', hError⟩

end

/-! ## Attempts -/

namespace Attempt

variable {first : Attempt σ α} {second : α → Attempt σ β} {s s' : σ}

theorem start_bind_ok {b : β} :
    (first >>= second).start s = (.ok b, s') ↔
      ∃ a s₁, first.start s = (.ok a, s₁) ∧ (second a).start s₁ = (.ok b, s') := by
  rw [start_bind]
  split
  · rename_i a s₁ hFirst
    simp [hFirst]
  · rename_i e s₁ hFirst
    simp [hFirst]

theorem start_bind_error {e : Error} :
    (first >>= second).start s = (.error e, s') ↔
      first.start s = (.error e, s') ∨
        ∃ a s₁, first.start s = (.ok a, s₁) ∧ (second a).start s₁ = (.error e, s') := by
  rw [start_bind]
  split
  · rename_i a s₁ hFirst
    simp [hFirst]
  · rename_i e s₁ hFirst
    simp [hFirst]

theorem start_lift_bind (result : Except Error α) (s : σ) :
    (lift result >>= second).start s =
      match result with
      | .ok a => (second a).start s
      | .error e => (.error e, s) := by
  rw [start_bind, start_lift]
  cases result <;> rfl

theorem start_modify (f : σ → Except Error σ) (s : σ) :
    (modify f).start s =
      match f s with
      | .ok s' => (.ok (), s')
      | .error e => (.error e, s) := rfl

theorem start_modify_eq_ok {f : σ → Except Error σ} :
    (modify f).start s = (.ok (), s') ↔ f s = .ok s' := by
  rw [start_modify]
  cases f s with
  | error e => simp
  | ok a => simp

theorem start_modify_of_error {f : σ → Except Error σ} {e : Error}
    (h : (modify f).start s = (.error e, s')) : s' = s := by
  rw [start_modify] at h
  split at h
  · cases h
  · cases h
    rfl

theorem start_within_eq {get : σ → τ} {set : τ → σ → σ} {attempt : Attempt τ α}
    {result : Except Error α} :
    (within get set attempt).start s = (result, s') ↔
      ∃ part, attempt.start (get s) = (result, part) ∧ set part s = s' := by
  rw [start_within]
  constructor
  · intro h
    obtain ⟨hResult, hState⟩ := Prod.mk.inj h
    exact ⟨_, Prod.ext hResult rfl, hState⟩
  · rintro ⟨part, hPart, rfl⟩
    rw [hPart]

/-! ### What attempts keep -/

/-- What holds before the attempt holds after it, also if it fails. -/
def Keeps (P : σ → Prop) (attempt : Attempt σ α) : Prop := ∀ s, P s → P (attempt.start s).2

variable {P : σ → Prop}

theorem keeps_pure (a : α) : Keeps P (pure a : Attempt σ α) := fun _ h => h

theorem keeps_lift (result : Except Error α) : Keeps P (lift result : Attempt σ α) :=
  fun _ h => h

theorem Keeps.bind (hFirst : Keeps P first) (hSecond : ∀ a, Keeps P (second a)) :
    Keeps P (first >>= second) := by
  intro s h
  have hMiddle := hFirst s h
  rw [start_bind]
  split
  · rename_i a s₁ hStart
    rw [hStart] at hMiddle
    exact hSecond a s₁ hMiddle
  · rename_i e s₁ hStart
    rw [hStart] at hMiddle
    exact hMiddle

/-- What every step of a pass keeps, the pass keeps. -/
theorem keeps_mapM {f : α → Attempt σ β} {as : List α} (h : ∀ a ∈ as, Keeps P (f a)) :
    Keeps P (as.mapM f) := by
  induction as with
  | nil => exact keeps_pure _
  | cons a rest ih =>
      have hRest := ih fun a' ha' => h a' (List.mem_cons_of_mem _ ha')
      rw [List.mapM_cons]
      exact (h a List.mem_cons_self).bind fun _ => hRest.bind fun _ => keeps_pure _

/-- What every step of a pass keeps, the pass keeps. -/
theorem keeps_forM {f : α → Attempt σ PUnit} {as : List α} (h : ∀ a ∈ as, Keeps P (f a)) :
    Keeps P (as.forM f) := by
  induction as with
  | nil => exact keeps_pure _
  | cons a rest ih =>
      have hRest := ih fun a' ha' => h a' (List.mem_cons_of_mem _ ha')
      rw [forM_cons]
      exact (h a List.mem_cons_self).bind fun _ => hRest

/-! ### Passes over a list -/

theorem start_mapM_cons_ok {f : α → Attempt σ β} {a : α} {as : List α} {bs : List β} :
    ((a :: as).mapM f).start s = (.ok bs, s') ↔
      ∃ b rest s₁, (f a).start s = (.ok b, s₁) ∧ (as.mapM f).start s₁ = (.ok rest, s') ∧
        bs = b :: rest := by
  rw [List.mapM_cons, start_bind_ok]
  constructor
  · rintro ⟨b, s₁, hHead, hRest⟩
    obtain ⟨rest, s₂, hTail, hEq⟩ := start_bind_ok.1 hRest
    cases hEq
    exact ⟨b, rest, s₁, hHead, hTail, rfl⟩
  · rintro ⟨b, rest, s₁, hHead, hTail, rfl⟩
    exact ⟨b, s₁, hHead, start_bind_ok.2 ⟨rest, s', hTail, rfl⟩⟩

/-- What every step tells about its result, a pass tells about its results. -/
theorem forall₂_of_start_mapM {R : α → β → Prop} {f : α → Attempt σ β} {as : List α} {bs : List β}
    (hStep : ∀ a s b s', (f a).start s = (.ok b, s') → R a b)
    (h : (as.mapM f).start s = (.ok bs, s')) : List.Forall₂ R as bs := by
  induction as generalizing s bs with
  | nil =>
      cases h
      exact List.Forall₂.nil
  | cons a rest ih =>
      obtain ⟨b, others, s₁, hHead, hRest, rfl⟩ := start_mapM_cons_ok.1 h
      exact List.Forall₂.cons (hStep a s b s₁ hHead) (ih hRest)

/-- A pass has as many results as steps. -/
theorem length_of_start_mapM {f : α → Attempt σ β} {as : List α} {bs : List β}
    (h : (as.mapM f).start s = (.ok bs, s')) : bs.length = as.length :=
  (forall₂_of_start_mapM (R := fun _ _ => True) (fun _ _ _ _ _ => trivial) h).length_eq.symm

theorem start_mapM_append_ok {f : α → Attempt σ β} {as as' : List α} {bs bs' : List β} {s₁ : σ}
    (h : (as.mapM f).start s = (.ok bs, s₁)) (h' : (as'.mapM f).start s₁ = (.ok bs', s')) :
    ((as ++ as').mapM f).start s = (.ok (bs ++ bs'), s') := by
  induction as generalizing s bs with
  | nil =>
      cases h
      exact h'
  | cons a rest ih =>
      obtain ⟨b, others, s₂, hHead, hRest, rfl⟩ := start_mapM_cons_ok.1 h
      exact start_mapM_cons_ok.2 ⟨b, others ++ bs', s₂, hHead, ih hRest, rfl⟩

/-- A pass over groups is a pass over all that is in them. -/
theorem start_mapM_flatMap {γ : Type} {f : α → Attempt σ β} {group : γ → List α} {cs : List γ}
    {answers : List (List β)}
    (h : (cs.mapM fun c => (group c).mapM f).start s = (.ok answers, s')) :
    ((cs.flatMap group).mapM f).start s = (.ok answers.flatten, s') := by
  induction cs generalizing s answers with
  | nil =>
      cases h
      rfl
  | cons c rest ih =>
      obtain ⟨bs, others, s₁, hHead, hRest, rfl⟩ := start_mapM_cons_ok.1 h
      exact start_mapM_append_ok hHead (ih hRest)

/-- A pass succeeds if every step does from wherever a former one may have
led. -/
theorem start_mapM_isOk {f : α → Attempt σ β} {g : α → β} {as : List α}
    (h : ∀ a ∈ as, ∀ s, P s → ∃ s', (f a).start s = (.ok (g a), s') ∧ P s') (hs : P s) :
    ∃ s', (as.mapM f).start s = (.ok (as.map g), s') ∧ P s' := by
  induction as generalizing s with
  | nil => exact ⟨s, rfl, hs⟩
  | cons a rest ih =>
      obtain ⟨s₁, hHead, hs₁⟩ := h a List.mem_cons_self s hs
      obtain ⟨s', hRest, hs'⟩ := ih (fun a' ha' => h a' (List.mem_cons_of_mem _ ha')) hs₁
      exact ⟨s', start_mapM_cons_ok.2 ⟨g a, rest.map g, s₁, hHead, hRest, rfl⟩, hs'⟩

theorem start_forM_cons_ok {f : α → Attempt σ PUnit} {a : α} {as : List α} :
    ((a :: as).forM f).start s = (.ok (), s') ↔
      ∃ s₁, (f a).start s = (.ok (), s₁) ∧ (as.forM f).start s₁ = (.ok (), s') := by
  rw [forM_cons, start_bind_ok]
  constructor
  · rintro ⟨_, s₁, hHead, hTail⟩
    exact ⟨s₁, hHead, hTail⟩
  · rintro ⟨s₁, hHead, hTail⟩
    exact ⟨(), s₁, hHead, hTail⟩

/-- A pass of attempts on a part is an attempt on that part. -/
theorem start_forM_within (get : σ → τ) (set : τ → σ → σ) (hGet : ∀ t s, get (set t s) = t)
    (hSet : ∀ t t' s, set t (set t' s) = set t s) (hSame : ∀ s, set (get s) s = s)
    (f : α → Attempt τ PUnit) (as : List α) (s : σ) :
    (as.forM fun a => within get set (f a)).start s = (within get set (as.forM f)).start s := by
  induction as generalizing s with
  | nil =>
      rw [start_within]
      exact Prod.ext rfl (hSame s).symm
  | cons a rest ih =>
      rw [forM_cons, start_bind, start_within, start_within, forM_cons, start_bind]
      cases (f a).start (get s) with
      | mk result part =>
          cases result with
          | error e => rfl
          | ok u =>
              show (rest.forM fun a => within get set (f a)).start (set part s) = _
              rw [ih, start_within, hGet, hSet]

end Attempt

end ObjectStore
