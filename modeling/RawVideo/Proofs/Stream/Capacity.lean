import RawVideo.Proofs.Stream.Written

/-!
# Sinks that fill up

A sink with a capacity takes bytes up to it and then fails for good.  An action that writes
either has room for all its bytes, or it fills the sink.  So whatever a writer is asked
behind the first failure, its sink holds the front of the stream that a sink without a limit
would hold, and the writer knows the header and has counted the frames that lie there whole.
-/

namespace RawVideo
namespace Writer

open StreamFrame

variable {action : Action Error Writer Unit} {picture : Picture}
variable {header : Header} {header? next? : Option Header} {line : String}
variable {held more : List UInt8} {pictures : List Picture} {capacity n m : Nat}

/-!
## Full sinks
-/

theorem Emits.full (h : Emits (some capacity) action more header? next? n m)
    (hheld : held.length = capacity) (hmore : more ≠ []) :
    Action.Reports action (filling (some capacity) held header? n) (.transport .sinkFull)
      (filling (some capacity) held header? n) := by
  have hshort : capacity < held.length + more.length := by
    rw [hheld]
    exact Nat.lt_add_of_pos_right (List.length_pos_iff.mpr hmore)
  have hcut := h.cut held capacity rfl (Nat.le_of_eq hheld) hshort
  rwa [List.take_append_of_le_length (Nat.le_of_eq hheld.symm),
    List.take_of_length_le (Nat.le_of_eq hheld)] at hcut

/-- Behind the front of a stream, an action leaves the front of the longer stream. -/
theorem Emits.run_front (h : Emits (some capacity) action more header? next? n m)
    (hmore : more ≠ []) (held : List UInt8) :
    exists outcome, action.run (filling (some capacity) (held.take capacity) header? n) =
      .ok (outcome, filling (some capacity) ((held ++ more).take capacity)
        (if held.length + more.length ≤ capacity then next? else header?)
        (if held.length + more.length ≤ capacity then m else n)) := by
  rcases Nat.lt_or_ge capacity (held.length + more.length) with hshort | hfits
  · rw [if_neg (Nat.not_le.mpr hshort), if_neg (Nat.not_le.mpr hshort)]
    rcases Nat.lt_or_ge capacity held.length with hcut | hheld
    · have hfull : (held.take capacity).length = capacity :=
        List.length_take_of_le (Nat.le_of_lt hcut)
      rw [List.take_append_of_le_length (Nat.le_of_lt hcut)]
      exact ⟨_, h.full hfull hmore⟩
    · rw [List.take_of_length_le hheld]
      exact ⟨_, h.cut held capacity rfl hheld hshort⟩
  · have hall : (held ++ more).length ≤ capacity := by
      rwa [List.length_append]
    rw [if_pos hfits, if_pos hfits, List.take_of_length_le hall,
      List.take_of_length_le (Nat.le_of_add_right_le hfits)]
    exact ⟨_, h.fits held fun _ hlimit => Option.some.inj hlimit ▸ hfits⟩

theorem lineOf_ne_nil (line : String) : lineOf line ≠ [] :=
  List.append_ne_nil_of_right_ne_nil _ (List.cons_ne_nil _ _)

theorem encoding_ne_nil (picture : Picture) : encoding picture ≠ [] :=
  List.append_ne_nil_of_right_ne_nil _ (List.cons_ne_nil _ _)

/-!
## Where frames end
-/

/-- The offsets behind the last bytes of frames that start at an offset. -/
def frameEnds (start : Nat) : List Picture -> List Nat
  | [] => []
  | picture :: rest =>
      (start + (encoding picture).length) :: frameEnds (start + (encoding picture).length) rest

theorem frameEnds_append (start : Nat) (pictures others : List Picture) :
    frameEnds start (pictures ++ others) =
      frameEnds start pictures ++
        frameEnds (start + (pictures.flatMap encoding).length) others := by
  induction pictures generalizing start with
  | nil => rfl
  | cons picture rest ih =>
      rw [List.cons_append, frameEnds, ih, List.flatMap_cons, List.length_append,
        ← Nat.add_assoc]
      rfl

theorem le_of_mem_frameEnds {start stop : Nat} (h : stop ∈ frameEnds start pictures) :
    start ≤ stop := by
  induction pictures generalizing start with
  | nil => exact (List.not_mem_nil h).elim
  | cons picture rest ih =>
      have hnext := Nat.le_add_right start (encoding picture).length
      rcases List.mem_cons.mp h with hhead | htail
      · rwa [hhead]
      · exact Nat.le_trans hnext (ih htail)

/-!
## Cut streams
-/

/--
What a writer on a sink with a limit holds of a stream: its front, the header if the whole
line is there, and the number of frames that are there as a whole.
-/
def kept (capacity : Nat) (header : Header) (line : String) (pictures : List Picture) :
    Writer :=
  filling (some capacity) ((lineOf line ++ pictures.flatMap encoding).take capacity)
    (if (lineOf line).length ≤ capacity then some header else none)
    ((frameEnds (lineOf line).length pictures).countP (· ≤ capacity))

theorem kept_of_room (h : (lineOf line).length ≤ capacity) :
    kept capacity header line pictures =
      filling (some capacity) ((lineOf line ++ pictures.flatMap encoding).take capacity)
        (some header) ((frameEnds (lineOf line).length pictures).countP (· ≤ capacity)) := by
  unfold kept
  rw [if_pos h]

/-- A line that does not fit is all there is, whatever comes behind it. -/
theorem kept_of_short (h : capacity < (lineOf line).length) :
    kept capacity header line pictures =
      filling (some capacity) ((lineOf line).take capacity) none 0 := by
  have hnone : (frameEnds (lineOf line).length pictures).countP (· ≤ capacity) = 0 := by
    rw [List.countP_eq_zero]
    intro stop hstop
    rw [decide_eq_true_iff]
    exact Nat.not_le.mpr (Nat.lt_of_lt_of_le h (le_of_mem_frameEnds hstop))
  unfold kept
  rw [if_neg (Nat.not_le.mpr h), hnone, List.take_append_of_le_length (Nat.le_of_lt h)]

theorem answers_commit_kept (hline : header.resolve.render = .ok line)
    (hroom : (lineOf line).length ≤ capacity) :
    Action.Answers (commit header) (filling (some capacity) [] none 0) ()
      (kept capacity header.resolve line []) := by
  rw [kept_of_room hroom, List.flatMap_nil, List.append_nil, List.take_of_length_le hroom]
  apply (emits_commit hline).fits []
  intro limit hlimit
  rwa [List.length_nil, Nat.zero_add, ← Option.some.inj hlimit]

theorem reports_commit_kept (hline : header.resolve.render = .ok line)
    (hshort : capacity < (lineOf line).length) :
    Action.Reports (commit header) (filling (some capacity) [] none 0) (.transport .sinkFull)
      (kept capacity header.resolve line pictures) := by
  rw [kept_of_short hshort]
  exact (emits_commit hline).cut [] capacity rfl (Nat.zero_le _)
    (by rwa [List.length_nil, Nat.zero_add])

theorem reports_commit_full (hheld : held.length = capacity) (other : Header) :
    exists error, Action.Reports (commit other) (filling (some capacity) held none n) error
      (filling (some capacity) held none n) := by
  cases hline : other.resolve.render with
  | error error => exact ⟨error, (Action.reports_ofExcept hline _).bind _⟩
  | ok line => exact ⟨_, (emits_commit hline).full hheld (lineOf_ne_nil line)⟩

theorem countP_frameEnds_append (start : Nat) (pictures : List Picture) (picture : Picture) :
    (frameEnds start (pictures ++ [picture])).countP (· ≤ capacity) =
      if start + (pictures.flatMap encoding).length + (encoding picture).length ≤ capacity then
        (frameEnds start pictures).countP (· ≤ capacity) + 1
      else (frameEnds start pictures).countP (· ≤ capacity) := by
  rw [frameEnds_append, List.countP_append, frameEnds, frameEnds, List.countP_singleton]
  simp only [decide_eq_true_eq]
  split <;> rfl

theorem run_writePayload_kept (h : picture.view.Covered)
    (hroom : (lineOf line).length ≤ capacity) :
    exists outcome, (writePayload picture).run (kept capacity header line pictures) =
      .ok (outcome, kept capacity header line (pictures ++ [picture])) := by
  have hgrown : lineOf line ++ (pictures ++ [picture]).flatMap encoding =
      lineOf line ++ pictures.flatMap encoding ++ encoding picture := by
    rw [List.flatMap_append, List.flatMap_singleton, List.append_assoc]
  have hemits : Emits (some capacity) (writePayload picture) (encoding picture) (some header)
      (some header) ((frameEnds (lineOf line).length pictures).countP (· ≤ capacity)) _ :=
    emits_writePayload h
  rcases hemits.run_front (encoding_ne_nil picture) (lineOf line ++ pictures.flatMap encoding)
    with ⟨outcome, hrun⟩
  rw [ite_self, List.length_append] at hrun
  rw [kept_of_room hroom, kept_of_room hroom, countP_frameEnds_append, hgrown]
  exact ⟨outcome, hrun⟩

/-!
## Calls
-/

/-- Behind a line that did not fit, no call writes anything. -/
theorem run_kept_of_short (h : capacity < (lineOf line).length) (call : Call)
    (pictures others : List Picture) :
    exists outcome, call.run.run (kept capacity header line pictures) =
      .ok (outcome, kept capacity header line others) := by
  have hfull : ((lineOf line).take capacity).length = capacity :=
    List.length_take_of_le (Nat.le_of_lt h)
  rw [kept_of_short h, kept_of_short h]
  rcases reports_commit_full hfull call.opening with ⟨error, hreports⟩
  cases call with
  | header header => exact ⟨_, hreports⟩
  | frame picture => exact ⟨_, hreports.bind _⟩

theorem run_writeHeader_kept (capacity : Nat) (header : Header) (line : String)
    (pictures : List Picture) (other : Header) :
    exists outcome, (writeHeader other).run (kept capacity header line pictures) =
      .ok (outcome, kept capacity header line pictures) := by
  rcases Nat.lt_or_ge capacity (lineOf line).length with hshort | hroom
  · exact run_kept_of_short hshort (.header other) _ _
  · rw [kept_of_room hroom]
    exact ⟨_, rfl⟩

theorem run_writeFrame_refused {error : Error} (h : header.check picture.view = .error error)
    (capacity : Nat) (line : String) (pictures : List Picture) :
    exists outcome, (writeFrame picture).run (kept capacity header line pictures) =
      .ok (outcome, kept capacity header line pictures) := by
  rcases Nat.lt_or_ge capacity (lineOf line).length with hshort | hroom
  · exact run_kept_of_short hshort (.frame picture) _ _
  · rw [kept_of_room hroom]
    exact ⟨_, (Action.reports_ofExcept h _).bind _⟩

theorem run_writeFrame_kept (h : picture.view.Covered)
    (hcheck : header.check picture.view = .ok ()) (capacity : Nat) (line : String)
    (pictures : List Picture) :
    exists outcome, (writeFrame picture).run (kept capacity header line pictures) =
      .ok (outcome, kept capacity header line (pictures ++ [picture])) := by
  rcases Nat.lt_or_ge capacity (lineOf line).length with hshort | hroom
  · exact run_kept_of_short hshort (.frame picture) _ _
  · rcases run_writePayload_kept h hroom with ⟨outcome, hrun⟩
    rw [kept_of_room hroom] at hrun ⊢
    exact ⟨outcome, ((Action.answers_ofExcept hcheck _).run_bind _).trans hrun⟩

theorem run_first {call : Call} (h : call.Sound)
    (hline : call.opening.resolve.render = .ok line) :
    exists outcome, call.run.run (filling (some capacity) [] none 0) =
      .ok (outcome, kept capacity call.opening.resolve line (framesOf [call])) := by
  rcases Nat.lt_or_ge capacity (lineOf line).length with hshort | hroom
  · cases call with
    | header header => exact ⟨_, reports_commit_kept hline hshort⟩
    | frame picture => exact ⟨_, (reports_commit_kept hline hshort).bind _⟩
  · have hheader := answers_commit_kept hline hroom
    cases call with
    | header header => exact ⟨_, hheader⟩
    | frame picture =>
        rcases run_writePayload_kept h hroom with ⟨outcome, hrun⟩
        rw [kept_of_room hroom] at hheader hrun
        refine ⟨outcome, (hheader.run_bind _).trans ?_⟩
        exact ((Action.answers_ofExcept (check_headerFor picture.view) _).run_bind _).trans hrun

/-- What a writer on a sink with a limit holds behind calls that succeed without one. -/
inductive HoldsCut (capacity : Nat) : List Call -> Writer -> Prop where
  | nothing : HoldsCut capacity [] (filling (some capacity) [] none 0)
  | stream {first : Call} {rest : List Call} {line : String} {frames : List Picture} :
      first.opening.resolve.render = .ok line -> framesOf (first :: rest) = frames ->
      HoldsCut capacity (first :: rest) (kept capacity first.opening.resolve line frames)

theorem HoldsCut.next {first call : Call} {rest : List Call} {writer : Writer}
    (h : HoldsCut capacity (first :: rest) writer) (hcall : call.Sound) :
    exists outcome next, call.run.run writer = .ok (outcome, next) ∧
      HoldsCut capacity (first :: rest ++ succeeded [call] [call.outcome (first :: rest)])
        next := by
  rcases exists_adds first call rest with ⟨whole, more, houtcome, hadds, hmore⟩
  rw [houtcome]
  cases h with
  | @stream _ _ line frames hline hframes =>
      rw [hframes] at hmore
      have hrun : exists outcome,
          call.run.run (kept capacity first.opening.resolve line frames) =
            .ok (outcome, kept capacity first.opening.resolve line (frames ++ more)) := by
        cases hadds with
        | header header =>
            rw [List.append_nil]
            exact run_writeHeader_kept capacity first.opening.resolve line frames header
        | refused hcheck =>
            rw [List.append_nil]
            exact run_writeFrame_refused hcheck capacity line frames
        | frame hcheck => exact run_writeFrame_kept hcall hcheck capacity line frames
      rcases hrun with ⟨outcome, hrun⟩
      exact ⟨outcome, _, hrun, HoldsCut.stream hline hmore⟩

theorem HoldsCut.step {done : List Call} {call : Call} {writer : Writer}
    (h : HoldsCut capacity done writer) (hcall : call.Sound) :
    exists outcome next, call.run.run writer = .ok (outcome, next) ∧
      HoldsCut capacity (done ++ succeeded [call] [call.outcome done]) next := by
  cases done with
  | cons first rest => exact h.next hcall
  | nil =>
      cases h
      have houtcome : call.outcome [] = call.opening.resolve.render.map fun _ => () := rfl
      rw [houtcome]
      cases hline : call.opening.resolve.render with
      | error error =>
          have hreports : Action.Reports (commit call.opening) (filling (some capacity) [] none 0)
              error (filling (some capacity) [] none 0) :=
            (Action.reports_ofExcept hline _).bind _
          cases call with
          | header header => exact ⟨_, _, hreports, HoldsCut.nothing⟩
          | frame picture => exact ⟨_, _, hreports.bind _, HoldsCut.nothing⟩
      | ok line =>
          rcases run_first hcall hline with ⟨outcome, hrun⟩
          exact ⟨outcome, _, hrun, HoldsCut.stream hline rfl⟩

theorem session_holdsCut {done calls : List Call} {writer : Writer}
    (h : HoldsCut capacity done writer) (hcalls : forall call, call ∈ calls -> call.Sound) :
    exists ends last, Action.session (calls.map Call.run) writer = .ok (ends, last) ∧
      HoldsCut capacity (done ++ succeeded calls (outcomes done calls)) last := by
  -- The calls are those that succeed without a limit, so both runs are about one stream.
  induction calls generalizing done writer with
  | nil =>
      refine ⟨[], writer, rfl, ?_⟩
      show HoldsCut capacity (done ++ []) writer
      rw [List.append_nil]
      exact h
  | cons call rest ih =>
      rw [List.forall_mem_cons] at hcalls
      rcases h.step hcalls.left with ⟨outcome, next, hnext, hholds⟩
      rcases ih hholds hcalls.right with ⟨ends, last, hlast, hend⟩
      refine ⟨outcome :: ends, last, Action.session_cons hnext hlast, ?_⟩
      rw [outcomes, succeeded_cons, ← List.append_assoc]
      exact hend

/-- A writer on a sink with a limit, beside one that was given the same frames without it. -/
structure CutAt (capacity : Nat) (pictures : List Picture) (whole cut : Writer) : Prop where
  bytes : cut.sink.bytes.toList = whole.sink.bytes.toList.take capacity
  nothing : whole.header? = none ->
    whole.sink.bytes = #[] ∧ cut.header? = none ∧ cut.frames = 0
  stream (header : Header) : whole.header? = some header -> exists line,
    header.render = .ok line ∧
      whole.sink.bytes.toList = lineOf line ++ pictures.flatMap encoding ∧
      whole.frames = pictures.length ∧
      cut.header? = (if (lineOf line).length ≤ capacity then some header else none) ∧
      cut.frames = (frameEnds (lineOf line).length pictures).countP (· ≤ capacity)

theorem HoldsCut.cutAt {done : List Call} {whole cut : Writer} (h : HoldsCut capacity done cut)
    (hwhole : Holds done whole) : CutAt capacity (framesOf done) whole cut := by
  cases hwhole with
  | nothing =>
      cases h
      exact ⟨List.take_nil.symm, fun _ => ⟨rfl, rfl, rfl⟩, fun _ h' => by cases h'⟩
  | stream _ hline _ =>
      rcases h with _ | ⟨hline', hframes⟩
      rw [hline] at hline'
      cases hline'
      cases hframes
      refine ⟨rfl, fun h' => (Option.some_ne_none _ h').elim, ?_⟩
      intro header hheader
      cases hheader
      exact ⟨_, hline, rfl, rfl, rfl, rfl⟩

/--
A sink that fills up only cuts the stream.  Where the same calls go to a sink without a limit
and to one that takes `capacity` bytes, the second holds the first bytes of the first; its
writer knows the header if the whole line is among them, and has counted the frames that end
there.
-/
theorem full_sinks_cut_the_stream {calls : List Call}
    (hcalls : forall call, call ∈ calls -> call.Sound) (capacity : Nat) :
    exists ends whole cut,
      Action.session (calls.map Call.run) (new (Sink.empty none)) =
          .ok (outcomes [] calls, whole) ∧
        Action.session (calls.map Call.run) (new (Sink.empty (some capacity))) =
            .ok (ends, cut) ∧
          CutAt capacity (framesOf (succeeded calls (outcomes [] calls))) whole cut := by
  have hempty : HoldsCut capacity [] (new (Sink.empty (some capacity))) := HoldsCut.nothing
  rcases session_holds Holds.nothing hcalls with ⟨whole, hwhole, hholds⟩
  rcases session_holdsCut hempty hcalls with ⟨ends, cut, hcut, hholdsCut⟩
  exact ⟨ends, whole, cut, hwhole, hcut, hholdsCut.cutAt hholds⟩

/-- A header and two frames, and room for the header, one frame and a part of the other. -/
theorem full_sinks_cut_the_stream_i420 :
    exists (view : View) (origin : Memory) (ends : List (Except Error Unit))
      (whole cut : Writer),
      Attempt.Answers (View.ofPlanes .i420 3 3 [9, 4, 4] [3, 2, 2]) view ∧
      Action.session
          ([.header ⟨.nv12, 3, 3, ⟨0, 0⟩, ⟨1, 0⟩, .progressive⟩, .frame ⟨view, origin⟩,
            .frame ⟨view, origin⟩].map Call.run) (new (Sink.empty none)) =
        .ok ([.ok (), .ok (), .ok ()], whole) ∧
      Action.session
          ([.header ⟨.nv12, 3, 3, ⟨0, 0⟩, ⟨1, 0⟩, .progressive⟩, .frame ⟨view, origin⟩,
            .frame ⟨view, origin⟩].map Call.run) (new (Sink.empty (some 70))) =
        .ok (ends, cut) ∧
      CutAt 70 [⟨view, origin⟩, ⟨view, origin⟩] whole cut := by
  have hview : Attempt.Answers (View.ofPlanes .i420 3 3 [9, 4, 4] [3, 2, 2])
      ⟨.i420, 3, 3, #v[⟨⟨0, 9⟩, 3⟩, ⟨⟨9, 4⟩, 2⟩, ⟨⟨13, 4⟩, 2⟩, Plane.none]⟩ := rfl
  have hheader : (Call.header ⟨.nv12, 3, 3, ⟨0, 0⟩, ⟨1, 0⟩, .progressive⟩).Sound :=
    ⟨by decide, by decide, ⟨by decide, by decide⟩, ⟨by decide, by decide⟩⟩
  have hframe : (Call.frame ⟨_, Memory.zeros 17⟩).Sound := View.covered_of_ofPlanes hview
  have hcalls : forall call : Call, call ∈ _ -> call.Sound :=
    List.forall_mem_cons.mpr ⟨hheader, List.forall_mem_cons.mpr
      ⟨hframe, List.forall_mem_cons.mpr
        ⟨hframe, fun _ hmem => (List.not_mem_nil hmem).elim⟩⟩⟩
  rcases full_sinks_cut_the_stream hcalls 70 with ⟨ends, whole, cut, hwhole, hcut, hcutAt⟩
  exact ⟨_, Memory.zeros 17, ends, whole, cut, hview, hwhole, hcut, hcutAt⟩

end Writer
end RawVideo
