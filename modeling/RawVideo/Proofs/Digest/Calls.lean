import RawVideo.Digest.Context
import RawVideo.Proofs.Digest.Adler32.Lanes
import RawVideo.Proofs.Digest.Md5

/-!
# Calls of a digest context

A context answers to its calls alone: what it was fed behind the last restart and in
front of the next finish is its message, in whatever pieces it came, and each finish
that computes a value computes the digest of the message.
-/

namespace RawVideo

variable {algorithm : Algorithm} {kernel : Kernel}

/-!
## Accumulators
-/

theorem Kernel.update_eq (kernel : Kernel) (state : UInt32) (bytes : List UInt8) :
    kernel.update state bytes = Adler32.updateScalar state bytes := by
  cases kernel with
  | scalar => rfl
  | chunked => exact Adler32.updateChunked_eq_updateScalar state bytes
  | ssse3 => exact Adler32.updateVector_eq_updateScalar state bytes

namespace Accumulator

@[simp] theorem algorithm_initial (algorithm : Algorithm) :
    (initial algorithm).algorithm = algorithm := by
  cases algorithm <;> rfl

@[simp] theorem algorithm_update (accumulator : Accumulator) (kernel : Kernel)
    (bytes : List UInt8) :
    (accumulator.update kernel bytes).algorithm = accumulator.algorithm := by
  cases accumulator <;> rfl

theorem update_update (accumulator : Accumulator) (kernel : Kernel) (bytes other : List UInt8) :
    (accumulator.update kernel bytes).update kernel other =
      accumulator.update kernel (bytes ++ other) := by
  cases accumulator with
  | adler32 state => simp only [update, Kernel.update_eq, Adler32.updateScalar_append]
  | md5 context => simp only [update, Md5.Context.update_update]

theorem update_initial_nil (algorithm : Algorithm) (kernel : Kernel) :
    (initial algorithm).update kernel [] = initial algorithm := by
  cases algorithm with
  | adler32 => simp only [initial, update, Kernel.update_eq]; rfl
  | md5 =>
      have hnone : Md5.Context.absorbAll Md5.State.initial [] = (Md5.State.initial, []) :=
        Md5.Context.absorbAll_of_lt _ (by decide)
      simp only [initial, update, Md5.Context.update, Md5.Context.initial, List.append_nil, hnone]
      rfl

theorem value_update_initial (algorithm : Algorithm) (kernel : Kernel) (message : List UInt8) :
    ((initial algorithm).update kernel message).value = algorithm.digest message := by
  cases algorithm with
  | adler32 =>
      simp only [initial, update, value, Kernel.update_eq, Algorithm.digest, Adler32.seed]
  | md5 => exact Md5.Context.finish_update message

end Accumulator

/-!
## One call
-/

namespace Context

variable {context : Context} {bytes other : List UInt8}

@[simp] theorem update_nil (context : Context) : context.update [] = context := rfl

theorem update_of_finalized (h : context.phase = .finalized) (bytes : List UInt8) :
    context.update bytes = context := by
  cases bytes with
  | nil => rfl
  | cons b rest => simp [update, h]

theorem update_of_open (h : context.phase ≠ .finalized) (hbytes : bytes ≠ []) :
    context.update bytes =
      ⟨context.kernel, .accumulating, context.accumulator.update context.kernel bytes,
        context.value⟩ := by
  cases bytes with
  | nil => exact (hbytes rfl).elim
  | cons b rest =>
      cases hphase : context.phase with
      | ready => simp [update, hphase]
      | accumulating => simp [update, hphase]
      | finalized => exact (h hphase).elim

theorem algorithm_finished (accumulator : Accumulator) :
    (finalize.finished accumulator).algorithm = accumulator.algorithm := by
  cases accumulator <;> rfl

theorem finalize_of_finalized (h : context.phase = .finalized) : context.finalize = context := by
  simp [finalize, h]

theorem finalize_of_open (h : context.phase ≠ .finalized) :
    context.finalize =
      ⟨context.kernel, .finalized, finalize.finished context.accumulator,
        context.accumulator.value⟩ := by
  cases hphase : context.phase with
  | ready => simp [finalize, hphase]
  | accumulating => simp [finalize, hphase]
  | finalized => exact (h hphase).elim

/-- An update does nothing, or it feeds its bytes to an open context. -/
theorem update_cases (context : Context) (bytes : List UInt8) :
    context.update bytes = context ∨
      context.phase ≠ .finalized ∧ bytes ≠ [] ∧
        context.update bytes =
          ⟨context.kernel, .accumulating, context.accumulator.update context.kernel bytes,
            context.value⟩ := by
  by_cases h : context.phase = .finalized
  · exact Or.inl (update_of_finalized h bytes)
  · by_cases hbytes : bytes = []
    · rw [hbytes]
      exact Or.inl (update_nil context)
    · exact Or.inr ⟨h, hbytes, update_of_open h hbytes⟩

@[simp] theorem kernel_update (context : Context) (bytes : List UInt8) :
    (context.update bytes).kernel = context.kernel := by
  rcases update_cases context bytes with h | ⟨_, _, h⟩
  · rw [h]
  · rw [h]

@[simp] theorem algorithm_update (context : Context) (bytes : List UInt8) :
    (context.update bytes).algorithm = context.algorithm := by
  rcases update_cases context bytes with h | ⟨_, _, h⟩
  · rw [h]
  · rw [h]
    exact Accumulator.algorithm_update _ _ _

@[simp] theorem value_update (context : Context) (bytes : List UInt8) :
    (context.update bytes).value = context.value := by
  rcases update_cases context bytes with h | ⟨_, _, h⟩
  · rw [h]
  · rw [h]

@[simp] theorem phase_finalize (context : Context) : context.finalize.phase = .finalized := by
  by_cases h : context.phase = .finalized
  · rw [finalize_of_finalized h, h]
  · rw [finalize_of_open h]

@[simp] theorem kernel_finalize (context : Context) : context.finalize.kernel = context.kernel := by
  by_cases h : context.phase = .finalized
  · rw [finalize_of_finalized h]
  · rw [finalize_of_open h]

@[simp] theorem algorithm_finalize (context : Context) :
    context.finalize.algorithm = context.algorithm := by
  by_cases h : context.phase = .finalized
  · rw [finalize_of_finalized h]
  · rw [finalize_of_open h]
    exact algorithm_finished context.accumulator

@[simp] theorem algorithm_restart (context : Context) :
    context.restart.algorithm = context.algorithm :=
  Accumulator.algorithm_initial _

@[simp] theorem algorithm_new (algorithm : Algorithm) (kernel : Kernel) :
    (new algorithm kernel).algorithm = algorithm :=
  Accumulator.algorithm_initial _

/-- A new context is as if it was started again. -/
theorem restart_new (algorithm : Algorithm) (kernel : Kernel) :
    (new algorithm kernel).restart = new algorithm kernel := by
  unfold restart
  rw [algorithm_new]
  rfl

/-- In which pieces bytes are fed does not matter. -/
theorem update_update (context : Context) (bytes other : List UInt8) :
    (context.update bytes).update other = context.update (bytes ++ other) := by
  by_cases h : context.phase = .finalized
  · simp only [update_of_finalized h]
  · by_cases hbytes : bytes = []
    · rw [hbytes, update_nil, List.nil_append]
    · by_cases hother : other = []
      · rw [hother, update_nil, List.append_nil]
      · have hboth : bytes ++ other ≠ [] := List.append_ne_nil_of_left_ne_nil hbytes other
        rw [update_of_open h hbytes, update_of_open h hboth, update_of_open (by simp) hother,
          Accumulator.update_update]

/-!
## Runs of calls
-/

inductive Call where
  | update (bytes : List UInt8)
  | finalize
  | restart
  deriving DecidableEq

/-- The context after a call. -/
def call (context : Context) : Call -> Context
  | .update bytes => context.update bytes
  | .finalize => context.finalize
  | .restart => context.restart

/-- The context after some calls. -/
def run (context : Context) (calls : List Call) : Context :=
  calls.foldl call context

theorem run_append (context : Context) (calls more : List Call) :
    context.run (calls ++ more) = (context.run calls).run more :=
  List.foldl_append

theorem run_cons (context : Context) (first : Call) (rest : List Call) :
    context.run (first :: rest) = (context.call first).run rest := rfl

namespace Call

variable {calls : List Call} {call : Call}

/-- The calls behind the last restart. -/
def sinceRestart (calls : List Call) : List Call :=
  (calls.reverse.takeWhile fun call => call ≠ .restart).reverse

/-- The bytes that a call feeds. -/
def fed : Call -> List UInt8
  | .update bytes => bytes
  | _ => []

/-- What was fed behind the last restart, up to the first finish there. -/
def message (calls : List Call) : List UInt8 :=
  ((sinceRestart calls).takeWhile fun call => call ≠ .finalize).flatMap fed

@[simp] theorem sinceRestart_restart (calls : List Call) :
    sinceRestart (calls ++ [.restart]) = [] := by
  simp [sinceRestart]

theorem sinceRestart_append (calls : List Call) (h : call ≠ .restart) :
    sinceRestart (calls ++ [call]) = sinceRestart calls ++ [call] := by
  simp [sinceRestart, h]

theorem takeWhile_append_restart (calls others : List Call) :
    (calls ++ .restart :: others).takeWhile (fun call => call ≠ .restart) =
      calls.takeWhile fun call => call ≠ .restart := by
  induction calls with
  | nil => simp
  | cons call rest ih => simp only [List.cons_append, List.takeWhile_cons, ih]

theorem sinceRestart_behind (before after : List Call) :
    sinceRestart (before ++ .restart :: after) = sinceRestart after := by
  unfold sinceRestart
  rw [List.reverse_append, List.reverse_cons, List.append_assoc, List.singleton_append,
    takeWhile_append_restart]

@[simp] theorem message_restart (calls : List Call) : message (calls ++ [.restart]) = [] := by
  simp [message]

@[simp] theorem message_finalize (calls : List Call) :
    message (calls ++ [.finalize]) = message calls := by
  unfold message
  rw [sinceRestart_append calls (by decide), List.takeWhile_append]
  split
  next hall =>
    have hopen := (List.takeWhile_prefix _).eq_of_length hall
    rw [hopen]
    simp
  next => rfl

theorem message_of_finished (bytes : List UInt8) (h : .finalize ∈ sinceRestart calls) :
    message (calls ++ [.update bytes]) = message calls := by
  have hcut : ((sinceRestart calls).takeWhile fun call => call ≠ .finalize).length ≠
      (sinceRestart calls).length := by
    intro hall
    have hopen := (List.takeWhile_prefix _).eq_of_length hall
    rw [← hopen] at h
    have hnot := List.mem_takeWhile_imp h
    simp at hnot
  unfold message
  rw [sinceRestart_append calls (by simp), List.takeWhile_append, if_neg hcut]

theorem message_of_open (bytes : List UInt8) (h : .finalize ∉ sinceRestart calls) :
    message (calls ++ [.update bytes]) = message calls ++ bytes := by
  have hall : (sinceRestart calls).takeWhile (fun call => call ≠ .finalize) =
      sinceRestart calls := by
    rw [List.takeWhile_eq_self_iff]
    intro call hcall
    simp only [decide_not, Bool.not_eq_true', decide_eq_false_iff_not]
    intro heq
    exact h (heq ▸ hcall)
  unfold message
  rw [sinceRestart_append calls (by simp), List.takeWhile_append, hall, if_pos rfl]
  simp [fed]

end Call

open Call (sinceRestart message)

/-!
## Contexts that follow their calls
-/

variable {calls : List Call}

/-- The phase that calls lead to. -/
def phaseAfter (calls : List Call) : Phase :=
  if .finalize ∈ sinceRestart calls then .finalized
  else if message calls = [] then .ready
  else .accumulating

/-- A context is where its calls lead to.  An open one still holds the message. -/
structure Follows (algorithm : Algorithm) (kernel : Kernel) (calls : List Call)
    (context : Context) : Prop where
  kernel_eq : context.kernel = kernel
  algorithm_eq : context.algorithm = algorithm
  phase_eq : context.phase = phaseAfter calls
  accumulator_eq : context.phase ≠ .finalized ->
    context.accumulator = (Accumulator.initial algorithm).update kernel (message calls)
  value_eq : context.phase = .finalized -> context.value = algorithm.digest (message calls)

theorem phaseAfter_eq_finalized :
    phaseAfter calls = .finalized ↔ .finalize ∈ sinceRestart calls := by
  unfold phaseAfter
  split
  next h => simp [h]
  next h =>
    split
    next => simp [h]
    next => simp [h]

theorem Follows.new (algorithm : Algorithm) (kernel : Kernel) :
    Follows algorithm kernel [] (new algorithm kernel) := by
  constructor
  · rfl
  · exact Accumulator.algorithm_initial algorithm
  · rfl
  · intro _
    exact (Accumulator.update_initial_nil algorithm kernel).symm
  · intro h
    cases h

theorem Follows.update (h : Follows algorithm kernel calls context) (bytes : List UInt8) :
    Follows algorithm kernel (calls ++ [.update bytes]) (context.update bytes) := by
  have hsince := Call.sinceRestart_append calls (show Call.update bytes ≠ .restart by simp)
  have hmem : .finalize ∈ sinceRestart (calls ++ [.update bytes]) ↔
      .finalize ∈ sinceRestart calls := by
    rw [hsince]
    simp
  by_cases hphase : context.phase = .finalized
  · have hfinished := phaseAfter_eq_finalized.mp (h.phase_eq.symm.trans hphase)
    have hmessage := Call.message_of_finished bytes hfinished
    rw [update_of_finalized hphase]
    refine ⟨h.kernel_eq, h.algorithm_eq, ?_, fun hopen => (hopen hphase).elim, ?_⟩
    · rw [hphase]
      exact (phaseAfter_eq_finalized.mpr (hmem.mpr hfinished)).symm
    · rw [hmessage]
      exact h.value_eq
  · have hopen : .finalize ∉ sinceRestart calls := fun hfinished =>
      hphase (h.phase_eq.trans (phaseAfter_eq_finalized.mpr hfinished))
    have hmessage := Call.message_of_open bytes hopen
    by_cases hbytes : bytes = []
    · subst hbytes
      rw [List.append_nil] at hmessage
      refine ⟨h.kernel_eq, h.algorithm_eq, ?_, ?_, fun hfinal => (hphase hfinal).elim⟩
      · rw [update_nil, h.phase_eq, phaseAfter, phaseAfter, hmessage, if_neg hopen,
          if_neg (fun hfinished => hopen (hmem.mp hfinished))]
      · rw [hmessage]
        exact h.accumulator_eq
    · rw [update_of_open hphase hbytes]
      refine ⟨h.kernel_eq, ?_, ?_, ?_, fun hfinal => by cases hfinal⟩
      · exact (Accumulator.algorithm_update _ _ _).trans h.algorithm_eq
      · have hne : message calls ++ bytes ≠ [] := List.append_ne_nil_of_right_ne_nil _ hbytes
        rw [phaseAfter, hmessage, if_neg (fun hfinished => hopen (hmem.mp hfinished)),
          if_neg hne]
      · intro _
        rw [hmessage, ← Accumulator.update_update, ← h.accumulator_eq hphase, h.kernel_eq]

theorem Follows.finalize (h : Follows algorithm kernel calls context) :
    Follows algorithm kernel (calls ++ [.finalize]) context.finalize := by
  have hmem : .finalize ∈ sinceRestart (calls ++ [.finalize]) := by
    rw [Call.sinceRestart_append calls (by simp)]
    simp
  refine ⟨?_, ?_, ?_, ?_, ?_⟩
  · rw [kernel_finalize, h.kernel_eq]
  · rw [algorithm_finalize, h.algorithm_eq]
  · rw [phase_finalize, phaseAfter_eq_finalized.mpr hmem]
  · intro hopen
    exact (hopen (phase_finalize context)).elim
  · intro _
    rw [Call.message_finalize]
    by_cases hphase : context.phase = .finalized
    · rw [finalize_of_finalized hphase, h.value_eq hphase]
    · rw [finalize_of_open hphase, h.accumulator_eq hphase]
      exact Accumulator.value_update_initial algorithm kernel (message calls)

theorem Follows.restart (h : Follows algorithm kernel calls context) :
    Follows algorithm kernel (calls ++ [.restart]) context.restart := by
  refine ⟨h.kernel_eq, ?_, ?_, ?_, fun hfinal => by cases hfinal⟩
  · rw [algorithm_restart, h.algorithm_eq]
  · rw [phaseAfter, Call.sinceRestart_restart, Call.message_restart]
    rfl
  · intro _
    rw [Call.message_restart, Accumulator.update_initial_nil, ← h.algorithm_eq]
    rfl

theorem Follows.call (h : Follows algorithm kernel calls context) (next : Call) :
    Follows algorithm kernel (calls ++ [next]) (context.call next) := by
  cases next with
  | update bytes => exact h.update bytes
  | finalize => exact h.finalize
  | restart => exact h.restart

theorem Follows.run (h : Follows algorithm kernel calls context) (more : List Call) :
    Follows algorithm kernel (calls ++ more) (context.run more) := by
  induction more generalizing calls context with
  | nil =>
      rw [List.append_nil]
      exact h
  | cons next rest ih =>
      have hrest := ih (h.call next)
      rw [List.append_assoc, List.singleton_append] at hrest
      exact hrest

theorem follows_run (algorithm : Algorithm) (kernel : Kernel) (calls : List Call) :
    Follows algorithm kernel calls ((new algorithm kernel).run calls) :=
  (Follows.new algorithm kernel).run calls

/-- Every finish leaves the digest of the message, whether it computes it or not. -/
theorem value_run_finalize (algorithm : Algorithm) (kernel : Kernel) (calls : List Call) :
    ((new algorithm kernel).run (calls ++ [.finalize])).value =
      algorithm.digest (message calls) := by
  have hfollows := follows_run algorithm kernel (calls ++ [.finalize])
  rw [hfollows.value_eq, Call.message_finalize]
  rw [run_append]
  exact phase_finalize _

/--
The phase of a context tells whether its calls have finished it, and otherwise whether
they fed it anything.  A finish of an open context sets the value to the digest of the
message, and no other call changes the value.  Pieces, empty updates, updates behind a
finish, repeated finishes and calls in front of a restart do not show.
-/
theorem contexts_follow_calls (algorithm : Algorithm) (kernel : Kernel) :
    (new algorithm kernel).value = List.replicate algorithm.length 0 ∧
    (forall calls : List Call,
      ((new algorithm kernel).run calls).phase =
        (if Call.finalize ∈ sinceRestart calls then .finalized
        else if message calls = [] then .ready
        else .accumulating) ∧
      forall next : Call,
        ((new algorithm kernel).run (calls ++ [next])).value =
          if next = Call.finalize ∧ Call.finalize ∉ sinceRestart calls then
            algorithm.digest (message calls)
          else ((new algorithm kernel).run calls).value) ∧
    forall (context : Context) (before after : List Call),
      (forall bytes other : List UInt8,
        context.run (before ++ Call.update bytes :: Call.update other :: after) =
          context.run (before ++ Call.update (bytes ++ other) :: after)) ∧
      context.run (before ++ Call.update [] :: after) = context.run (before ++ after) ∧
      (forall bytes : List UInt8,
        context.run (before ++ Call.finalize :: Call.update bytes :: after) =
          context.run (before ++ Call.finalize :: after)) ∧
      context.run (before ++ Call.finalize :: Call.finalize :: after) =
        context.run (before ++ Call.finalize :: after) ∧
      ((new algorithm kernel).run (before ++ Call.restart :: (after ++ [Call.finalize]))).value =
        ((new algorithm kernel).run (after ++ [Call.finalize])).value := by
  refine ⟨rfl, ?_, ?_⟩
  · intro calls
    have hfollows := follows_run algorithm kernel calls
    refine ⟨hfollows.phase_eq, fun next => ?_⟩
    cases next with
    | update bytes =>
        rw [if_neg (by simp), run_append]
        exact value_update _ bytes
    | restart =>
        rw [if_neg (by simp), run_append]
        rfl
    | finalize =>
        by_cases hfinished : .finalize ∈ sinceRestart calls
        · have hphase := hfollows.phase_eq.trans (phaseAfter_eq_finalized.mpr hfinished)
          rw [if_neg (fun hopen => hopen.right hfinished), run_append]
          exact congrArg Context.value (finalize_of_finalized hphase)
        · rw [if_pos ⟨rfl, hfinished⟩, value_run_finalize]
  · intro context before after
    refine ⟨fun bytes other => ?_, ?_, fun bytes => ?_, ?_, ?_⟩
    · simp only [run_append, run_cons, call, update_update]
    · simp only [run_append, run_cons, call, update_nil]
    · simp only [run_append, run_cons, call]
      rw [update_of_finalized (phase_finalize _)]
    · simp only [run_append, run_cons, call]
      rw [finalize_of_finalized (phase_finalize _)]
    · have hmessage : message (before ++ .restart :: after) = message after := by
        unfold message
        rw [Call.sinceRestart_behind]
      rw [← List.cons_append, ← List.append_assoc, value_run_finalize, value_run_finalize,
        hmessage]

end Context
end RawVideo
