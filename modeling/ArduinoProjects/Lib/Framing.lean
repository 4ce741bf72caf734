import ArduinoProjects.Lib.Machine
import Mathlib.Data.List.Basic
import Mathlib.Tactic.SplitIfs

/-!
# Frames on a queue

A sender writes frames on a stream: a header, and as many arguments as the
header asks for.  The stream is cut into packets, which are appended to a queue
as they arrive.  A reader takes a frame from the queue whenever there is
something in it, and an argument that is not there yet is read as missing.

`frames_eq_iff` says that the reader gets the frames that were sent exactly
when it never starts on a frame of which only a part has arrived.  The way that
the stream was cut does not enter into it otherwise.
-/

namespace Framing

variable {β γ : Type}

/-- The number of arguments after a header.  No frame starts with a header that
has none. -/
structure Format (β : Type) where
  arity : β → Option Nat

/-- A frame with arguments in `γ`. -/
@[ext] structure Frame (fmt : Format β) (γ : Type) where
  header : β
  args : List γ
  len : fmt.arity header = some args.length

variable {fmt : Format β}

namespace Frame

/-- The frame on the stream. -/
def encode (f : Frame fmt β) : List β := f.header :: f.args

/-- The frame as the reader gets it when nothing is missing. -/
def full (f : Frame fmt β) : Frame fmt (Option β) where
  header := f.header
  args := f.args.map some
  len := by rw [List.length_map, f.len]

end Frame

/-! ## Reading -/

/-- The first element of a queue. -/
def pop : List β → Option β × List β
  | [] => (none, [])
  | b :: q => (some b, q)

/-- The first `n` elements of a queue, with those that are not there missing. -/
def take : Nat → List β → List (Option β) × List β
  | 0, q => ([], q)
  | n + 1, q => ((pop q).1 :: (take n (pop q).2).1, (take n (pop q).2).2)

theorem length_take (n : Nat) (q : List β) : (take n q).1.length = n := by
  induction n generalizing q with
  | zero => rfl
  | succ n ih => simp [take, ih]

theorem take_append (args q : List β) : take args.length (args ++ q) = (args.map some, q) := by
  induction args with
  | nil => rfl
  | cons b args ih => simp [take, pop, ih]

/-- In a queue that is too short something is missing. -/
theorem none_mem_take {n : Nat} {q : List β} (h : q.length < n) : none ∈ (take n q).1 := by
  induction n generalizing q with
  | zero => omega
  | succ n ih =>
    cases q with
    | nil => simp [take, pop]
    | cons b q =>
      rw [List.length_cons] at h
      have hq : q.length < n := by omega
      exact List.mem_cons_of_mem _ (ih hq)

/-- A header that starts no frame is dropped. -/
def read (fmt : Format β) : List β → Option (Frame fmt (Option β)) × List β
  | [] => (none, [])
  | header :: q =>
    match h : fmt.arity header with
    | none => (none, q)
    | some n => (some ⟨header, (take n q).1, by rw [h, length_take]⟩, (take n q).2)

theorem read_of_arity_none {header : β} (h : fmt.arity header = none) (q : List β) :
    read fmt (header :: q) = (none, q) := by
  simp only [read]
  split
  · rfl
  · next m hm => rw [h] at hm; cases hm

/-- A read at a header that starts a frame. -/
theorem read_of_arity {header : β} {n : Nat} (h : fmt.arity header = some n) (q : List β) :
    ∃ f, read fmt (header :: q) = (some f, (take n q).2) ∧
      f.header = header ∧ f.args = (take n q).1 := by
  simp only [read]
  split
  · next hnone => rw [h] at hnone; cases hnone
  · next m hm =>
    obtain rfl : n = m := by
      rw [h] at hm
      exact Option.some.inj hm
    exact ⟨_, rfl, rfl, rfl⟩

theorem read_encode (f : Frame fmt β) (q : List β) :
    read fmt (f.encode ++ q) = (some f.full, q) := by
  obtain ⟨g, hread, hheader, hargs⟩ := read_of_arity f.len (f.args ++ q)
  rw [take_append] at hread hargs
  have hg : g = f.full := Frame.ext hheader hargs
  rw [← hg]
  exact hread

/-- A frame of which only a part is there is not the frame that was sent. -/
theorem read_short {f : Frame fmt β} {q : List β} (h : q.length < f.args.length) :
    ∃ g, (read fmt (f.header :: q)).1 = some g ∧ g ≠ f.full := by
  obtain ⟨g, hread, _, hargs⟩ := read_of_arity f.len q
  refine ⟨g, by rw [hread], fun hg => ?_⟩
  have hnone := none_mem_take h
  rw [← hargs, hg] at hnone
  simp [Frame.full] at hnone

/-! ## The reader -/

/-- A packet that arrives, and whether the reader reads before that. -/
structure Turn (β : Type) where
  reads : Bool
  packet : List β

/-- The queue and the frames that the reader gets. -/
def reader (fmt : Format β) : Machine (List β) (Turn β) (Option (Frame fmt (Option β))) where
  step q t :=
    if t.reads then ((read fmt q).2 ++ t.packet, (read fmt q).1) else (q ++ t.packet, none)

/-- The reader does not start on a frame of which only a part has arrived. -/
def Whole (fmt : Format β) (q : List β) (t : Turn β) : Prop :=
  t.reads = true → ∀ header rest, q = header :: rest →
    ∀ n, fmt.arity header = some n → n ≤ rest.length

/-- The stream that the packets are cut from. -/
def stream (turns : List (Turn β)) : List β := turns.flatMap Turn.packet

/-- The frames that the reader gets. -/
def received (fmt : Format β) (q : List β) (turns : List (Turn β)) :
    List (Frame fmt (Option β)) :=
  ((reader fmt).trace q turns).filterMap id

/-- A queue that is not empty starts with the first frame that is left. -/
theorem exists_frame {header : β} {rest later : List β} {frames : List (Frame fmt β)}
    (hsent : header :: rest ++ later = frames.flatMap Frame.encode) :
    ∃ f frames', frames = f :: frames' ∧ header = f.header ∧
      rest ++ later = f.args ++ frames'.flatMap Frame.encode := by
  cases frames with
  | nil => cases hsent
  | cons f frames' =>
    rw [List.flatMap_cons, Frame.encode, List.cons_append, List.cons_append,
      List.cons.injEq] at hsent
    exact ⟨f, frames', rfl, hsent.1, hsent.2⟩

theorem received_cons (q : List β) (t : Turn β) (turns : List (Turn β)) :
    received fmt q (t :: turns) =
      ((reader fmt).out q t).toList ++ received fmt ((reader fmt).next q t) turns := by
  cases h : (reader fmt).out q t <;> simp [received, h]

/-- A turn that finds a frame at the front of the queue gets it and leaves the rest. -/
theorem reader_encode {t : Turn β} (hreads : t.reads = true) (f : Frame fmt β) (q : List β) :
    (reader fmt).step (f.encode ++ q) t = (q ++ t.packet, some f.full) := by
  simp [reader, hreads, read_encode]

/-- A frame of which all arguments have arrived is whole. -/
theorem whole_cons {f : Frame fmt β} {rest : List β} (h : f.args.length ≤ rest.length)
    (t : Turn β) : Whole fmt (f.header :: rest) t := by
  intro _ header rest' heq n hn
  cases heq
  rw [f.len] at hn
  cases hn
  exact h

/-- When all that was sent has been read, the reader has got the frames that
were sent exactly when it never started on a part of one. -/
theorem frames_eq_iff {q : List β} {turns : List (Turn β)} {frames : List (Frame fmt β)}
    (hsent : q ++ stream turns = frames.flatMap Frame.encode)
    (hread : (reader fmt).run q turns = []) :
    received fmt q turns = frames.map Frame.full ↔ (reader fmt).Always (Whole fmt) q turns := by
  induction turns generalizing q frames with
  | nil =>
    obtain rfl : q = [] := hread
    cases frames with
    | nil => simp [received, Machine.Always]
    | cons f frames => cases hsent
  | cons t turns ih =>
    -- A turn that reads nothing leaves the frames to be read as they are.
    have hskip (hstep : (reader fmt).step q t = (q ++ t.packet, none)) :
        received fmt q (t :: turns) = frames.map Frame.full ↔
          (reader fmt).Always (Whole fmt) ((reader fmt).next q t) turns := by
      have hnext : (reader fmt).next q t = q ++ t.packet := congrArg Prod.fst hstep
      have hout : (reader fmt).out q t = none := congrArg Prod.snd hstep
      rw [received_cons, hout, Option.toList_none, List.nil_append]
      refine ih ?_ hread
      rw [hnext, List.append_assoc]
      exact hsent
    cases hreads : t.reads with
    | false =>
      rw [hskip (by simp [reader, hreads])]
      simp [Machine.Always, Whole, hreads]
    | true =>
      cases q with
      | nil =>
        rw [hskip (by simp [reader, read])]
        simp [Machine.Always, Whole]
      | cons header rest =>
        obtain ⟨f, frames', rfl, rfl, hrest⟩ := exists_frame hsent
        have hout : (reader fmt).out (f.header :: rest) t = (read fmt (f.header :: rest)).1 := by
          simp [Machine.out, reader, hreads]
        rw [received_cons, hout, List.map_cons]
        by_cases hlen : f.args.length ≤ rest.length
        · -- The frame is there: it is read, and the rest of the queue is left.
          have hwhole := whole_cons hlen t
          obtain ⟨q', rfl⟩ : f.args <+: rest :=
            List.prefix_of_prefix_length_le ⟨_, hrest.symm⟩ ⟨_, rfl⟩ hlen
          have hstep : (reader fmt).step (f.header :: (f.args ++ q')) t =
              (q' ++ t.packet, some f.full) := reader_encode hreads f q'
          have hnext : (reader fmt).next (f.header :: (f.args ++ q')) t = q' ++ t.packet :=
            congrArg Prod.fst hstep
          have hsent' : (reader fmt).next (f.header :: (f.args ++ q')) t ++ stream turns =
              frames'.flatMap Frame.encode := by
            rw [List.append_assoc] at hrest
            rw [hnext, List.append_assoc]
            exact List.append_cancel_left hrest
          rw [← hout, Machine.out, hstep, Option.toList_some, List.singleton_append,
            List.cons.injEq, and_iff_right rfl, ih hsent' hread]
          exact ⟨fun h => ⟨hwhole, h⟩, fun h => h.2⟩
        · -- Only a part is there, and something else is read.
          obtain ⟨g, hg, hne⟩ := read_short (f := f) (q := rest) (by omega)
          rw [hg, Option.toList_some, List.singleton_append, List.cons.injEq]
          constructor
          · exact fun h => absurd h.1 hne
          · exact fun h => absurd (h.1 hreads _ _ rfl _ f.len) hlen

end Framing
