import RawVideo.Proofs.Stream.Payload
import RawVideo.Stream.Writer

/-!
# Actions that write

What a writer does to its sink is to put bytes behind those that it holds.  Where the sink has
room for them all the writer goes on, and where it has not, the sink is full and the writer
reports so.  Actions one after the other put their bytes one after the other, so the line of a
header and the encoding of a frame go out like single runs of bytes.
-/

namespace RawVideo
namespace Writer

open StreamFrame

variable {α : Type} {action : Action Error Writer Unit} {picture : Picture}
variable {header : Header} {header? next? : Option Header} {line : String}
variable {more : List UInt8} {capacity : Option Nat} {n m : Nat}

/-- A writer on a sink that holds bytes, with a limit or without one. -/
def filling (capacity : Option Nat) (held : List UInt8) (header? : Option Header)
    (frames : Nat) : Writer :=
  ⟨⟨held.toArray, capacity⟩, header?, frames⟩

/--
An action writes bytes where there is room for them, and leaves a header and a number of
frames behind them.  Where there is not, it fills the sink and changes nothing else.
-/
structure Emits (capacity : Option Nat) (action : Action Error Writer Unit) (more : List UInt8)
    (header? next? : Option Header) (n m : Nat) : Prop where
  fits (held : List UInt8) :
    (forall limit, capacity = some limit -> held.length + more.length ≤ limit) ->
      Action.Answers action (filling capacity held header? n) ()
        (filling capacity (held ++ more) next? m)
  cut (held : List UInt8) (limit : Nat) : capacity = some limit -> held.length ≤ limit ->
    limit < held.length + more.length ->
      Action.Reports action (filling capacity held header? n) (.transport .sinkFull)
        (filling capacity ((held ++ more).take limit) header? n)

theorem take_room {held : List UInt8}
    (hroom : forall limit, capacity = some limit -> held.length + more.length ≤ limit) :
    more.take (Sink.room ⟨held.toArray, capacity⟩ more.length) = more := by
  cases capacity with
  | none => exact List.take_length
  | some limit =>
      have hle := Nat.le_sub_of_add_le' (hroom limit rfl)
      show more.take (min more.length (limit - held.toArray.size)) = more
      rw [List.size_toArray, Nat.min_eq_left hle, List.take_length]

theorem emits_emit (capacity : Option Nat) (more : List UInt8) (header? : Option Header)
    (n : Nat) : Emits capacity (emit more) more header? header? n n := by
  constructor
  · intro held hroom
    unfold Action.Answers filling
    show (Sink.write more ⟨held.toArray, capacity⟩).map _ = _
    unfold Sink.write
    dsimp only
    rw [take_room hroom, if_pos rfl, List.toArray_appendList]
    rfl
  · intro held limit hlimit hheld hshort
    subst hlimit
    have hlt : limit - held.length < more.length := Nat.sub_lt_left_of_lt_add hheld hshort
    have hroom : Sink.room ⟨held.toArray, some limit⟩ more.length = limit - held.length := by
      show min more.length (limit - held.toArray.size) = _
      rw [List.size_toArray, Nat.min_eq_right (Nat.le_of_lt hlt)]
    have hmissing : (more.take (limit - held.length)).length ≠ more.length := by
      rw [List.length_take_of_le (Nat.le_of_lt hlt)]
      exact Nat.ne_of_lt hlt
    unfold Action.Reports filling
    show (Sink.write more ⟨held.toArray, some limit⟩).map _ = _
    unfold Sink.write
    dsimp only
    rw [hroom, if_neg hmissing, List.toArray_appendList, List.take_append,
      List.take_of_length_le hheld]
    rfl

theorem emits_nothing
    (h : forall held, Action.Answers action (filling capacity held header? n) ()
      (filling capacity held next? m)) : Emits capacity action [] header? next? n m := by
  constructor
  · intro held _
    rw [List.append_nil]
    exact h held
  · intro held limit _ hheld hshort
    exact absurd hshort (Nat.not_lt.mpr hheld)

theorem Emits.bind {first second : Action Error Writer Unit} {bytes : List UInt8}
    (hfirst : Emits capacity first bytes header? header? n n)
    (hsecond : Emits capacity second more header? next? n m) :
    Emits capacity (first >>= fun _ => second) (bytes ++ more) header? next? n m := by
  constructor
  · intro held hroom
    rw [List.length_append, ← Nat.add_assoc] at hroom
    have hroom' := hsecond.fits (held ++ bytes) (by rwa [List.length_append])
    rw [← List.append_assoc]
    exact (hfirst.fits held fun limit hlimit =>
      Nat.le_of_add_right_le (hroom limit hlimit)).bind hroom'
  · intro held limit hlimit hheld hshort
    rw [List.length_append, ← Nat.add_assoc] at hshort
    rw [← List.append_assoc]
    rcases Nat.lt_or_ge limit (held.length + bytes.length) with hcut | hroom
    · have hfull : limit ≤ (held ++ bytes).length := by
        rw [List.length_append]
        exact Nat.le_of_lt hcut
      rw [List.take_append_of_le_length hfull]
      exact (hfirst.cut held limit hlimit hheld hcut).bind _
    · have hanswers := hfirst.fits held fun limit' hlimit' =>
        Option.some.inj (hlimit.symm.trans hlimit') ▸ hroom
      rw [← List.length_append] at hroom hshort
      exact hanswers.bind_reports (hsecond.cut _ limit hlimit hroom hshort)

theorem Emits.behind {x : Action Error Writer α} {f : α -> Action Error Writer Unit} {a : α}
    (h : Emits capacity (f a) more header? next? n m)
    (hx : forall writer, Action.Answers x writer a writer) :
    Emits capacity (x >>= f) more header? next? n m :=
  ⟨fun held hroom => (hx _).bind (h.fits held hroom),
    fun held limit hlimit hheld hshort =>
      (hx _).bind_reports (h.cut held limit hlimit hheld hshort)⟩

/-!
## Headers and payloads
-/

/-- The line of a header with its newline. -/
def lineOf (line : String) : List UInt8 :=
  ascii line ++ [newline]

theorem emits_commit (h : header.resolve.render = .ok line) :
    Emits capacity (commit header) (lineOf line) header? (some header.resolve) n n := by
  have hdone : Emits capacity
      (modify fun writer => { writer with header? := some header.resolve }) [] header?
      (some header.resolve) n n :=
    emits_nothing fun _ => rfl
  have hline : lineOf line = ascii line ++ ([newline] ++ []) := rfl
  unfold commit
  rw [hline]
  apply Emits.behind _ (Action.answers_ofExcept h)
  exact (emits_emit _ _ _ _).bind ((emits_emit _ _ _ _).bind hdone)

theorem emits_writeRow {row : Nat × Nat} (h : picture.view.Covered)
    (hrow : row ∈ visibleRows picture.view) :
    Emits capacity (writeRow picture row)
      (rowContent picture.view (picture.view.content picture.memory) row)
      header? header? n n := by
  rcases mem_visibleRows.mp hrow with ⟨⟨comp, hcomp⟩, hy⟩
  exact (emits_emit _ _ _ _).behind (Action.answers_ofChecked (rowBytes_eq h hcomp hy))

theorem emits_writeRows {rows : List (Nat × Nat)} (h : picture.view.Covered)
    (hrows : forall row, row ∈ rows -> row ∈ visibleRows picture.view) :
    Emits capacity (rows.forM (writeRow picture))
      (rows.flatMap (rowContent picture.view (picture.view.content picture.memory)))
      header? header? n n := by
  induction rows with
  | nil => exact emits_nothing fun _ => rfl
  | cons row rest ih =>
      rw [List.forall_mem_cons] at hrows
      rw [List.flatMap_cons]
      exact (emits_writeRow h hrows.left).bind (ih hrows.right)

theorem emits_writePayload (h : picture.view.Covered) :
    Emits capacity (writePayload picture) (encoding picture) header? header? n (n + 1) := by
  have hcounted : Emits capacity
      (modify fun writer => { writer with frames := writer.frames + 1 }) [] header? header?
      n (n + 1) :=
    emits_nothing fun _ => rfl
  have hjoin : encoding picture = ascii marker ++ ([newline] ++
      (payload picture.view (picture.view.content picture.memory) ++ [])) := by
    rw [encoding_eq, List.append_assoc, List.append_nil]
  unfold writePayload
  rw [hjoin]
  refine (emits_emit _ _ _ _).bind ((emits_emit _ _ _ _).bind ?_)
  apply Emits.behind _ (Action.answers_ofChecked (rows_eq h))
  exact (emits_writeRows h fun _ hrow => hrow).bind hcounted

end Writer
end RawVideo
