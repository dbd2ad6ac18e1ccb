import RawVideo.Memory.Basic

/-!
# Tilings

Spans that follow each other without a gap: every address between their ends lies in one of
them and in no other.  A run of bytes that is written span by span is written as a whole.
-/

namespace RawVideo

/-- Spans that follow each other from one address to another, without a gap. -/
def Tiles : Nat -> List Span -> Nat -> Prop
  | start, [], stop => start = stop
  | start, span :: rest, stop => span.start = start ∧ Tiles span.stop rest stop

namespace Tiles

variable {start middle stop : Nat} {span : Span} {spans others : List Span}

theorem le (h : Tiles start spans stop) : start ≤ stop := by
  induction spans generalizing start with
  | nil => exact Nat.le_of_eq h
  | cons span rest ih =>
      rcases h with ⟨rfl, hrest⟩
      exact Nat.le_trans (Nat.le_add_right _ _) (ih hrest)

theorem append (h : Tiles start spans middle) (h' : Tiles middle others stop) :
    Tiles start (spans ++ others) stop := by
  induction spans generalizing start with
  | nil =>
      cases h
      exact h'
  | cons span rest ih => exact ⟨h.left, ih h.right⟩

theorem within (h : Tiles start spans stop) (hspan : span ∈ spans) :
    start ≤ span.start ∧ span.stop ≤ stop := by
  induction spans generalizing start with
  | nil => cases hspan
  | cons first rest ih =>
      rcases h with ⟨rfl, hrest⟩
      rcases List.mem_cons.mp hspan with rfl | hmem
      · exact ⟨Nat.le_refl _, hrest.le⟩
      · have hlater := ih hrest hmem
        exact ⟨Nat.le_trans (Nat.le_add_right _ _) hlater.left, hlater.right⟩

/-- Spans of one length start at multiples of it. -/
theorem exists_multiple {width offset : Nat} {offsets : List Nat}
    (h : Tiles start (offsets.map (Span.mk · width)) stop) (hoffset : offset ∈ offsets) :
    exists k, offset = start + width * k := by
  induction offsets generalizing start with
  | nil => cases hoffset
  | cons first rest ih =>
      rcases h with ⟨rfl, hrest⟩
      rcases List.mem_cons.mp hoffset with rfl | hmem
      · exact ⟨0, rfl⟩
      · rcases ih hrest hmem with ⟨k, hk⟩
        refine ⟨k + 1, hk.trans ?_⟩
        show first + width + width * k = first + width * (k + 1)
        rw [Nat.mul_succ, Nat.add_assoc, Nat.add_comm width]

end Tiles

namespace Memory

theorem write_append (memory : Memory) (start : Nat) (front back : List UInt8) :
    write memory start (front ++ back) =
      write (write memory start front) (start + front.length) back := by
  induction front generalizing memory start with
  | nil => rfl
  | cons b rest ih =>
      rw [List.cons_append, write, write, ih, List.length_cons, Nat.add_right_comm,
        ← Nat.add_assoc]

/-- Bytes that are written span by span are written as a whole. -/
theorem foldl_write_of_tiles {first last : Nat} {spans : List Span} {bytes : List UInt8}
    (h : Tiles first spans last) (hlast : last ≤ bytes.length) (start : Nat) (memory : Memory) :
    spans.foldl (fun memory span =>
        write memory (start + span.start) ((bytes.drop span.start).take span.length)) memory =
      write memory (start + first) ((bytes.drop first).take (last - first)) := by
  induction spans generalizing first memory with
  | nil =>
      cases h
      rw [Nat.sub_self, List.take_zero]
      rfl
  | cons span rest ih =>
      rcases h with ⟨rfl, hrest⟩
      have hstop : span.start + span.length ≤ last := hrest.le
      have hlength : ((bytes.drop span.start).take span.length).length = span.length := by
        rw [List.length_take, List.length_drop]
        omega
      have hbytes : (bytes.drop span.start).take (last - span.start) =
          (bytes.drop span.start).take span.length ++
            (bytes.drop span.stop).take (last - span.stop) := by
        unfold Span.stop
        rw [← List.drop_drop, ← List.take_add]
        congr 1
        omega
      rw [List.foldl_cons, ih hrest, hbytes, write_append, hlength]
      unfold Span.stop
      rw [Nat.add_assoc]

end Memory
end RawVideo
