import RawVideo.Fault

/-!
# Outcomes

How a computation made of parts ends.  A sequence answers when its parts answer
one after the other, and it settles, with an answer or a reported error, when no
part of it faults.
-/

namespace RawVideo

/-!
## Checked computations
-/

namespace Checked

variable {ε α β σ ι : Type}

theorem ok_bind (a : α) (f : α -> Except ε β) : (Except.ok a >>= f) = f a := rfl

theorem bind_eq_ok {x : Except ε α} {f : α -> Except ε β} {b : β} :
    (x >>= f) = .ok b ↔ exists a, x = .ok a ∧ f a = .ok b := by
  cases x with
  | error error =>
      constructor
      · intro h
        cases h
      · intro h'
        rcases h' with ⟨a, ha, _⟩
        cases ha
  | ok a =>
      constructor
      · intro h
        exact ⟨a, rfl, h⟩
      · intro h'
        rcases h' with ⟨a', ha, h⟩
        cases ha
        exact h

theorem bind_eq_error {x : Except ε α} {f : α -> Except ε β} {error : ε} :
    (x >>= f) = .error error ↔
      x = .error error ∨ exists a, x = .ok a ∧ f a = .error error := by
  cases x with
  | error other =>
      constructor
      · intro h
        cases h
        exact Or.inl rfl
      · intro h'
        rcases h' with h | ⟨a, ha, _⟩
        · cases h
          rfl
        · cases ha
  | ok a =>
      constructor
      · intro h
        exact Or.inr ⟨a, rfl, h⟩
      · intro h'
        rcases h' with h | ⟨a', ha, h⟩
        · cases h
        · cases ha
          exact h

/-- What ends a run is an error of one of its steps. -/
theorem exists_of_foldlM_eq_error {f : σ -> ι -> Except ε σ} {xs : List ι} {s : σ} {error : ε}
    (h : xs.foldlM f s = .error error) :
    exists x s', x ∈ xs ∧ f s' x = .error error := by
  induction xs generalizing s with
  | nil => cases h
  | cons x rest ih =>
      rw [List.foldlM_cons, bind_eq_error] at h
      rcases h with h | ⟨next, _, hrest⟩
      · exact ⟨x, s, List.mem_cons_self, h⟩
      · rcases ih hrest with ⟨y, s', hy, herror⟩
        exact ⟨y, s', List.mem_cons_of_mem x hy, herror⟩

theorem foldlM_answers {f : σ -> ι -> Except ε σ} {P : σ -> Prop} {xs : List ι}
    (hstep : forall s x, x ∈ xs -> P s -> exists s', f s x = .ok s' ∧ P s') {s : σ}
    (hs : P s) : exists s', xs.foldlM f s = .ok s' ∧ P s' := by
  induction xs generalizing s with
  | nil => exact ⟨s, rfl, hs⟩
  | cons x rest ih =>
      rcases hstep s x List.mem_cons_self hs with ⟨next, hnext, hnextP⟩
      rw [List.foldlM_cons, hnext]
      exact ih (fun s y hy => hstep s y (List.mem_cons_of_mem x hy)) hnextP

theorem foldlM_eq_ok {f : σ -> ι -> Checked σ} {g : σ -> ι -> σ} {xs : List ι}
    (h : forall s x, x ∈ xs -> f s x = .ok (g s x)) (s : σ) :
    xs.foldlM f s = .ok (xs.foldl g s) := by
  induction xs generalizing s with
  | nil => rfl
  | cons x rest ih =>
      rw [List.foldlM_cons, h s x List.mem_cons_self, ok_bind]
      exact ih (fun s y hy => h s y (List.mem_cons_of_mem x hy)) (g s x)

theorem mapM_eq_ok {f : ι -> Checked α} {g : ι -> α} {xs : List ι}
    (h : forall x, x ∈ xs -> f x = .ok (g x)) : xs.mapM f = .ok (xs.map g) := by
  induction xs with
  | nil => rfl
  | cons x rest ih =>
      rw [List.forall_mem_cons] at h
      rw [List.mapM_cons, h.left, ok_bind, ih h.right]
      rfl

theorem mapM_map (f : ι -> Checked α) (g : α -> β) (xs : List ι) :
    (xs.mapM fun x => (f x).map g : Checked (List β)) = (xs.mapM f).map (List.map g) := by
  induction xs with
  | nil => rfl
  | cons x rest ih =>
      rw [List.mapM_cons, List.mapM_cons]
      cases f x with
      | error fault => rfl
      | ok a =>
          show (rest.mapM fun x => (f x).map g) >>= _ = _
          rw [ih]
          cases rest.mapM f <;> rfl

theorem length_of_mapM {f : ι -> Checked α} {xs : List ι} {answers : List α}
    (h : xs.mapM f = .ok answers) : answers.length = xs.length := by
  induction xs generalizing answers with
  | nil =>
      cases h
      rfl
  | cons x rest ih =>
      rw [List.mapM_cons] at h
      rcases bind_eq_ok.mp h with ⟨a, _, hrest⟩
      rcases bind_eq_ok.mp hrest with ⟨others, hothers, hanswers⟩
      cases hanswers
      rw [List.length_cons, List.length_cons, ih hothers]

theorem forall_mem_of_mapM {f : ι -> Checked α} {xs : List ι} {answers : List α} {P : α -> Prop}
    (h : xs.mapM f = .ok answers) (hf : forall x a, x ∈ xs -> f x = .ok a -> P a) :
    forall a, a ∈ answers -> P a := by
  induction xs generalizing answers with
  | nil =>
      cases h
      exact fun a ha => (List.not_mem_nil ha).elim
  | cons x rest ih =>
      rw [List.mapM_cons] at h
      rcases bind_eq_ok.mp h with ⟨a, ha, hrest⟩
      rcases bind_eq_ok.mp hrest with ⟨others, hothers, hanswers⟩
      cases hanswers
      rw [List.forall_mem_cons]
      exact ⟨hf x a List.mem_cons_self ha,
        ih hothers fun y b hy => hf y b (List.mem_cons_of_mem x hy)⟩

theorem map_eq_ok {x : Except ε α} {g : α -> β} {b : β} :
    x.map g = .ok b ↔ exists a, x = .ok a ∧ g a = b := by
  cases x with
  | error fault =>
      constructor
      · intro h
        cases h
      · intro h'
        rcases h' with ⟨a, h, _⟩
        cases h
  | ok a =>
      constructor
      · intro h
        cases h
        exact ⟨a, rfl, rfl⟩
      · intro h'
        rcases h' with ⟨a', h, rfl⟩
        cases h
        rfl

theorem forM_eq_ok {f : ι -> Except ε Unit} {xs : List ι}
    (h : forall x, x ∈ xs -> f x = .ok ()) : xs.forM f = .ok () := by
  induction xs with
  | nil => rfl
  | cons x rest ih =>
      rw [List.forall_mem_cons] at h
      show (f x >>= fun _ => rest.forM f) = _
      rw [h.left]
      exact ih h.right

/-- Two computations whose answers correspond have corresponding lists of answers. -/
theorem mapM_answers {f g : ι -> Checked α} {turn : α -> α} {P : α -> Prop} {xs : List ι}
    (h : forall x, x ∈ xs -> exists a, f x = .ok a ∧ g x = .ok (turn a) ∧ P a) :
    exists answers, xs.mapM f = .ok answers ∧ xs.mapM g = .ok (answers.map turn) ∧
      forall a, a ∈ answers -> P a := by
  induction xs with
  | nil => exact ⟨[], rfl, rfl, fun a ha => (List.not_mem_nil ha).elim⟩
  | cons x rest ih =>
      rw [List.forall_mem_cons] at h
      rcases h with ⟨⟨a, hf, hg, ha⟩, hrest⟩
      rcases ih hrest with ⟨answers, hfs, hgs, hanswers⟩
      refine ⟨a :: answers, ?_, ?_, List.forall_mem_cons.mpr ⟨ha, hanswers⟩⟩
      · rw [List.mapM_cons, hf, ok_bind, hfs]
        rfl
      · rw [List.mapM_cons, hg, ok_bind, hgs]
        rfl

theorem word64_eq_ok {n m : Nat} : word64 n = .ok m ↔ n < UInt64.size ∧ m = n := by
  unfold word64
  split
  next hlt =>
    constructor
    · intro h
      cases h
      exact ⟨hlt, rfl⟩
    · intro h'
      rcases h' with ⟨_, rfl⟩
      rfl
  next hge =>
    constructor
    · intro h
      cases h
    · intro h
      exact absurd h.left hge

theorem word64_eq_error {n : Nat} {fault : Fault} :
    word64 n = .error fault ↔ fault = .overflow ∧ UInt64.size ≤ n := by
  unfold word64
  split
  next hlt =>
    constructor
    · intro h
      cases h
    · intro h
      exact absurd hlt (Nat.not_lt.mpr h.right)
  next hge =>
    constructor
    · intro h
      cases h
      exact ⟨rfl, Nat.not_lt.mp hge⟩
    · intro h'
      rcases h' with ⟨rfl, _⟩
      rfl

end Checked

/-!
## Attempts
-/

namespace Attempt

variable {ε α β ι : Type}

/-- The attempt ends with an answer. -/
def Answers (attempt : Attempt ε α) (a : α) : Prop :=
  attempt.run = .ok (.ok a)

/-- The attempt ends without a fault. -/
def Settles (attempt : Attempt ε α) : Prop :=
  exists outcome, attempt.run = .ok outcome

theorem Answers.settles {attempt : Attempt ε α} {a : α} (h : Answers attempt a) :
    Settles attempt :=
  ⟨.ok a, h⟩

theorem Answers.run_ne_error {attempt : Attempt ε α} {a : α} (h : Answers attempt a)
    (error : ε) : attempt.run ≠ .ok (.error error) := by
  intro hrun
  rw [Answers, hrun] at h
  injection h with h
  cases h

theorem answers_pure (a : α) : Answers (pure a : Attempt ε α) a := rfl

theorem answers_pure_iff {a b : α} : Answers (pure a : Attempt ε α) b ↔ a = b := by
  constructor
  · intro h
    injection h with h
    injection h
  · intro heq
    subst heq
    rfl

theorem not_answers_throw (error : ε) (a : α) :
    ¬ Answers (throw error : Attempt ε α) a := by
  intro h
  injection h with h
  cases h

theorem settles_throw (error : ε) : Settles (throw error : Attempt ε α) :=
  ⟨.error error, rfl⟩

theorem answers_bind {x : Attempt ε α} {f : α -> Attempt ε β} {b : β} :
    Answers (x >>= f) b ↔ exists a, Answers x a ∧ Answers (f a) b := by
  unfold Answers
  rw [ExceptT.run_bind, Checked.bind_eq_ok]
  constructor
  · intro h
    rcases h with ⟨outcome, hx, hf⟩
    cases outcome with
    | error error => cases hf
    | ok a => exact ⟨a, hx, hf⟩
  · intro h
    rcases h with ⟨a, hx, hf⟩
    exact ⟨.ok a, hx, hf⟩

theorem Settles.bind {x : Attempt ε α} {f : α -> Attempt ε β} (hx : Settles x)
    (hf : forall a, Answers x a -> Settles (f a)) : Settles (x >>= f) := by
  rcases hx with ⟨outcome, hx⟩
  cases outcome with
  | error error =>
      refine ⟨.error error, ?_⟩
      rw [ExceptT.run_bind, hx]
      rfl
  | ok a =>
      rcases hf a hx with ⟨outcome, hrun⟩
      refine ⟨outcome, ?_⟩
      rw [ExceptT.run_bind, hx]
      exact hrun

theorem answers_unless {P : Prop} [Decidable P] {error : ε} {k : Unit -> Attempt ε β} {b : β} :
    Answers (if P then (throw error : Attempt ε Unit) >>= k else k ()) b ↔
      ¬ P ∧ Answers (k ()) b := by
  split
  next hP =>
    rw [answers_bind]
    constructor
    · intro h'
      rcases h' with ⟨u, hthrow, _⟩
      exact (not_answers_throw error u hthrow).elim
    · intro h
      exact absurd hP h.left
  next hP => exact (and_iff_right hP).symm

theorem settles_unless {P : Prop} [Decidable P] {error : ε} {k : Unit -> Attempt ε β}
    (h : ¬ P -> Settles (k ())) :
    Settles (if P then (throw error : Attempt ε Unit) >>= k else k ()) := by
  split
  next => exact ⟨.error error, rfl⟩
  next hP => exact h hP

theorem answers_ofChecked {x : Checked α} {a : α} :
    Answers (ofChecked x : Attempt ε α) a ↔ x = .ok a := by
  cases x with
  | error fault =>
      constructor
      · intro h
        cases h
      · intro h
        cases h
  | ok b =>
      constructor
      · intro h
        injection h with h
        injection h with h
        rw [h]
      · intro h
        injection h with h
        rw [h]
        rfl

theorem settles_ofChecked {x : Checked α} {a : α} (h : x = .ok a) :
    Settles (ofChecked x : Attempt ε α) :=
  (answers_ofChecked.mpr h).settles

theorem ofExcept_ok_bind (a : α) (f : α -> Attempt ε β) : (ofExcept (.ok a) >>= f) = f a := rfl

theorem answers_ofExcept {x : Except ε α} {a : α} :
    Answers (ofExcept x) a ↔ x = .ok a := by
  constructor
  · intro h
    injection h
  · intro h
    rw [h]
    rfl

theorem settles_ofExcept (x : Except ε α) : Settles (ofExcept x) :=
  ⟨x, rfl⟩

theorem answers_adapt {ε' : Type} {attempt : Attempt ε α} {g : ε -> ε'} {a : α} :
    Answers (attempt.adapt g : Attempt ε' α) a ↔ Answers attempt a := by
  unfold Answers
  show (ExceptT.run attempt).map _ = _ ↔ _
  cases attempt.run with
  | error fault =>
      constructor
      · intro h
        cases h
      · intro h
        cases h
  | ok outcome =>
      cases outcome with
      | error error =>
          constructor
          · intro h
            cases h
          · intro h
            cases h
      | ok b =>
          constructor
          · intro h
            injection h with h
            injection h with h
            rw [h]
          · intro h
            injection h with h
            injection h with h
            rw [h]
            rfl

theorem Settles.adapt {ε' : Type} {attempt : Attempt ε α} (h : Settles attempt) (g : ε -> ε') :
    Settles (attempt.adapt g : Attempt ε' α) := by
  rcases h with ⟨outcome, h⟩
  refine ⟨outcome.mapError g, ?_⟩
  show (ExceptT.run attempt).map _ = _
  rw [h]
  rfl

theorem answers_forM {f : ι -> Attempt ε Unit} {xs : List ι} :
    Answers (xs.forM f) () ↔ forall x, x ∈ xs -> Answers (f x) () := by
  induction xs with
  | nil => exact ⟨fun _ x hx => (List.not_mem_nil hx).elim, fun _ => rfl⟩
  | cons x rest ih =>
      show Answers (f x >>= fun _ => rest.forM f) () ↔ _
      rw [answers_bind, List.forall_mem_cons]
      constructor
      · intro h
        rcases h with ⟨_, hx, hrest⟩
        exact ⟨hx, ih.mp hrest⟩
      · intro h
        rcases h with ⟨hx, hrest⟩
        exact ⟨(), hx, ih.mpr hrest⟩

theorem settles_forM {f : ι -> Attempt ε Unit} {xs : List ι}
    (h : forall x, x ∈ xs -> Settles (f x)) : Settles (xs.forM f) := by
  induction xs with
  | nil => exact ⟨.ok (), rfl⟩
  | cons x rest ih =>
      show Settles (f x >>= fun _ => rest.forM f)
      rw [List.forall_mem_cons] at h
      exact h.left.bind fun _ _ => ih h.right

/-!
## Attempts that fault
-/

/-- The attempt stops with a fault. -/
def Faults (attempt : Attempt ε α) (fault : Fault) : Prop :=
  attempt.run = .error fault

variable {fault : Fault}

theorem not_faults_pure (a : α) : ¬ Faults (pure a : Attempt ε α) fault := by
  intro h
  cases h

theorem not_faults_throw (error : ε) : ¬ Faults (throw error : Attempt ε α) fault := by
  intro h
  cases h

theorem faults_bind {x : Attempt ε α} {f : α -> Attempt ε β} :
    Faults (x >>= f) fault ↔ Faults x fault ∨ exists a, Answers x a ∧ Faults (f a) fault := by
  unfold Faults Answers
  rw [ExceptT.run_bind, Checked.bind_eq_error]
  constructor
  · intro h'
    rcases h' with h | ⟨outcome, hx, hf⟩
    · exact Or.inl h
    · cases outcome with
      | error error => cases hf
      | ok a => exact Or.inr ⟨a, hx, hf⟩
  · intro h'
    rcases h' with h | ⟨a, hx, hf⟩
    · exact Or.inl h
    · exact Or.inr ⟨.ok a, hx, hf⟩

theorem faults_unless {P : Prop} [Decidable P] {error : ε} {k : Unit -> Attempt ε β} :
    Faults (if P then (throw error : Attempt ε Unit) >>= k else k ()) fault ↔
      ¬ P ∧ Faults (k ()) fault := by
  split
  next hP =>
    constructor
    · intro h
      cases h
    · intro h
      exact absurd hP h.left
  next hP => exact (and_iff_right hP).symm

theorem faults_ofChecked {x : Checked α} :
    Faults (ofChecked x : Attempt ε α) fault ↔ x = .error fault := by
  cases x with
  | error other =>
      constructor
      · intro h
        cases h
        rfl
      · intro h
        cases h
        rfl
  | ok a =>
      constructor
      · intro h
        cases h
      · intro h
        cases h

/-- A sequence stops at the first part that faults, if the parts in front of it answer. -/
theorem faults_forM {f : ι -> Attempt ε Unit} {xs : List ι} :
    Faults (xs.forM f) fault ↔
      exists front x back, xs = front ++ x :: back ∧
        (forall y, y ∈ front -> Answers (f y) ()) ∧ Faults (f x) fault := by
  induction xs with
  | nil =>
      constructor
      · intro h
        cases h
      · intro h'
        rcases h' with ⟨front, x, back, hsplit, _⟩
        cases front <;> cases hsplit
  | cons x rest ih =>
      show Faults (f x >>= fun _ => rest.forM f) fault ↔ _
      rw [faults_bind, ih]
      constructor
      · intro h'
        rcases h' with h | ⟨_, hx, front, y, back, rfl, hfront, hy⟩
        · exact ⟨[], x, rest, rfl, fun y hy => (List.not_mem_nil hy).elim, h⟩
        · exact ⟨x :: front, y, back, rfl, List.forall_mem_cons.mpr ⟨hx, hfront⟩, hy⟩
      · intro h'
        rcases h' with ⟨front, y, back, hsplit, hfront, hy⟩
        cases front with
        | nil =>
            cases hsplit
            exact Or.inl hy
        | cons first front =>
            cases hsplit
            rw [List.forall_mem_cons] at hfront
            exact Or.inr ⟨(), hfront.left, front, y, back, rfl, hfront.right, hy⟩

end Attempt

/-!
## Actions
-/

namespace Action

variable {ε σ α β ι : Type}

/-- The action ends with an answer and leaves a state. -/
def Answers (action : Action ε σ α) (s : σ) (a : α) (s' : σ) : Prop :=
  action.run s = .ok (.ok a, s')

/-- The action reports an error and leaves a state. -/
def Reports (action : Action ε σ α) (s : σ) (error : ε) (s' : σ) : Prop :=
  action.run s = .ok (.error error, s')

theorem run_bind (x : Action ε σ α) (f : α -> Action ε σ β) (s : σ) :
    (x >>= f).run s =
      match x.run s with
      | .error fault => .error fault
      | .ok (.error error, s') => .ok (.error error, s')
      | .ok (.ok a, s') => (f a).run s' := by
  show (x.run s >>= _) = _
  cases x.run s with
  | error fault => rfl
  | ok pair =>
      rcases pair with ⟨outcome, s'⟩
      cases outcome <;> rfl

theorem answers_bind {x : Action ε σ α} {f : α -> Action ε σ β} {s s' : σ} {b : β} :
    Answers (x >>= f) s b s' ↔
      exists a next, Answers x s a next ∧ Answers (f a) next b s' := by
  unfold Answers
  rw [run_bind]
  cases x.run s with
  | error fault =>
      constructor
      · intro h
        cases h
      · intro h'
        rcases h' with ⟨_, _, h, _⟩
        cases h
  | ok pair =>
      rcases pair with ⟨outcome, next⟩
      cases outcome with
      | error error =>
          constructor
          · intro h
            cases h
          · intro h'
            rcases h' with ⟨_, _, h, _⟩
            cases h
      | ok a =>
          constructor
          · intro h
            exact ⟨a, next, rfl, h⟩
          · intro h'
            rcases h' with ⟨_, _, h, hf⟩
            cases h
            exact hf

theorem Answers.bind {x : Action ε σ α} {f : α -> Action ε σ β} {s next s' : σ} {a : α} {b : β}
    (hx : Answers x s a next) (hf : Answers (f a) next b s') : Answers (x >>= f) s b s' :=
  answers_bind.mpr ⟨a, next, hx, hf⟩

theorem Answers.bind_reports {x : Action ε σ α} {f : α -> Action ε σ β} {s next s' : σ} {a : α}
    {error : ε} (hx : Answers x s a next) (hf : Reports (f a) next error s') :
    Reports (x >>= f) s error s' := by
  unfold Reports
  rw [run_bind, hx]
  exact hf

theorem Reports.bind {x : Action ε σ α} {s s' : σ} {error : ε} (hx : Reports x s error s')
    (f : α -> Action ε σ β) : Reports (x >>= f) s error s' := by
  unfold Reports
  rw [run_bind, hx]

theorem Answers.run_bind {x : Action ε σ α} {s next : σ} {a : α} (hx : Answers x s a next)
    (f : α -> Action ε σ β) : (x >>= f).run s = (f a).run next := by
  rw [Action.run_bind, hx]

theorem run_ofAttempt (x : Attempt ε α) (s : σ) :
    (ofAttempt x : Action ε σ α).run s = x.run.map fun outcome => (outcome, s) := rfl

/-- A sequence ends with what its first part reports, or as the rest does after it. -/
theorem bind_eq_ok {x : Action ε σ α} {f : α -> Action ε σ β} {s s' : σ}
    {outcome : Except ε β} (h : (x >>= f).run s = .ok (outcome, s')) :
    (exists error, Reports x s error s' ∧ outcome = .error error) ∨
      exists a next, Answers x s a next ∧ (f a).run next = .ok (outcome, s') := by
  rw [run_bind] at h
  unfold Reports Answers
  cases hx : x.run s with
  | error fault =>
      rw [hx] at h
      cases h
  | ok pair =>
      rw [hx] at h
      rcases pair with ⟨result, next⟩
      cases result with
      | error error =>
          cases h
          exact Or.inl ⟨error, rfl, rfl⟩
      | ok a => exact Or.inr ⟨a, next, rfl, h⟩

theorem ofAttempt_eq_ok {x : Attempt ε α} {s s' : σ} {outcome : Except ε α}
    (h : (ofAttempt x : Action ε σ α).run s = .ok (outcome, s')) :
    x.run = .ok outcome ∧ s' = s := by
  rw [run_ofAttempt] at h
  rcases Checked.map_eq_ok.mp h with ⟨result, hx, hpair⟩
  cases hpair
  exact ⟨hx, rfl⟩

theorem answers_get (s : σ) : Answers (get : Action ε σ σ) s s s := rfl

theorem answers_ofChecked {x : Checked α} {a : α} (h : x = .ok a) (s : σ) :
    Answers (ofAttempt (Attempt.ofChecked x) : Action ε σ α) s a s := by
  rw [h]
  rfl

theorem answers_ofExcept {x : Except ε α} {a : α} (h : x = .ok a) (s : σ) :
    Answers (ofAttempt (Attempt.ofExcept x) : Action ε σ α) s a s := by
  rw [h]
  rfl

theorem reports_ofExcept {x : Except ε α} {error : ε} (h : x = .error error) (s : σ) :
    Reports (ofAttempt (Attempt.ofExcept x) : Action ε σ α) s error s := by
  rw [h]
  rfl

theorem answers_ofAttempt {x : Attempt ε α} {a : α} (h : Attempt.Answers x a) (s : σ) :
    Answers (ofAttempt x : Action ε σ α) s a s := by
  show (ExceptT.run x).map _ = _
  rw [show ExceptT.run x = .ok (.ok a) from h]
  rfl

theorem reports_ofAttempt {x : Attempt ε α} {error : ε} (h : x.run = .ok (.error error)) (s : σ) :
    Reports (ofAttempt x : Action ε σ α) s error s := by
  unfold Reports
  rw [run_ofAttempt, h]
  rfl

theorem answers_update {f : σ -> Checked σ} {s s' : σ} (h : f s = .ok s') :
    Answers (update f : Action ε σ Unit) s () s' := by
  show (f s).map _ = _
  rw [h]
  rfl

theorem answers_update_iff {f : σ -> Checked σ} {s s' : σ} :
    Answers (update f : Action ε σ Unit) s () s' ↔ f s = .ok s' := by
  constructor
  · intro h
    rcases Checked.map_eq_ok.mp h with ⟨next, hnext, hpair⟩
    cases hpair
    exact hnext
  · exact answers_update

theorem not_reports_update (f : σ -> Checked σ) (s s' : σ) (error : ε) :
    ¬ Reports (update f : Action ε σ Unit) s error s' := by
  intro h
  unfold Reports at h
  rcases Checked.map_eq_ok.mp h with ⟨next, _, hpair⟩
  cases hpair

/-!
A run of actions goes on behind a reported error, as a caller does that handles it.
-/

/-- Run actions one after the other. -/
def session : List (Action ε σ α) -> σ -> Checked (List (Except ε α) × σ)
  | [], s => .ok ([], s)
  | action :: rest, s => do
      let (outcome, next) <- (action.run s : Checked (Except ε α × σ))
      let (outcomes, last) <- session rest next
      return (outcome :: outcomes, last)

theorem session_cons {action : Action ε σ α} {rest : List (Action ε σ α)} {s next last : σ}
    {outcome : Except ε α} {outcomes : List (Except ε α)} (h : action.run s = .ok (outcome, next))
    (hrest : session rest next = .ok (outcomes, last)) :
    session (action :: rest) s = .ok (outcome :: outcomes, last) := by
  unfold session
  rw [h, Checked.ok_bind]
  dsimp only
  rw [hrest]
  rfl

end Action
end RawVideo
