import ChromiumDemo.JsonText
import Mathlib.Data.List.DropRight

/-! The trace file of common/utils.h. Windows opens it with what it held before, the
other platforms empty; every write goes to the end of the last one. A flush hands
its events over in chunks, all but the last with more to come. -/

namespace ChromiumDemo.TraceFile
open JsonText

inductive Platform
  | windows
  | posix
deriving DecidableEq

structure File where
  bytes : Text
  position : Nat := 0
  written : Text := []

def writeAtCurrentPos (data : Text) (f : File) : File where
  bytes := f.bytes.take f.position ++ data ++ f.bytes.drop (f.position + data.length)
  position := f.position + data.length
  written := f.written ++ data

/-- Only the flags of the other platforms truncate the file. -/
def opened (old : Text) : Platform → Text
  | .windows => old
  | .posix => []

def initTrace (platform : Platform) (old : Text) : File :=
  writeAtCurrentPos [ascii '['] { bytes := opened old platform }

/-- A chunk is empty or has its events separated by commas. -/
structure Chunk where
  events : List Text
  text : Text
  objects : ∀ e ∈ events, IsObject e
  separated : events = [] ∧ text = [] ∨ Separated events text

/-- The chunks of one flush; the last is the one without more events to come. -/
structure Round where
  more : List Chunk
  last : Chunk

def Round.chunks (r : Round) : List Chunk := r.more ++ [r.last]

def newline : Text := [ascii '\n']

def flushCallback (eventsStr : Text) (hasMoreEvents : Bool) (f : File) : File :=
  let f := writeAtCurrentPos eventsStr f
  let f := writeAtCurrentPos (comma ++ newline) f
  if !hasMoreEvents then writeAtCurrentPos newline f else f

def flushTrace (r : Round) (f : File) : File :=
  flushCallback r.last.text false (r.more.foldl (fun f c => flushCallback c.text true f) f)

def run (platform : Platform) (old : Text) (rounds : List Round) : File :=
  rounds.foldl (fun f r => flushTrace r f) (initTrace platform old)

def chunks (rounds : List Round) : List Chunk := rounds.flatMap Round.chunks

def dropComma (t : Text) : Text :=
  if t.getLast? = some (ascii ',') then t.dropLast else t

/-- What a trace viewer makes of a trace that was cut off. -/
def completed (t : Text) : Text := dropComma (t.rdropWhile isSpace) ++ [ascii ']']

structure OneTrace (f : File) (events : List Text) : Prop where
  bytes : f.bytes = f.written
  array : IsArray events (completed f.bytes)

def traceLength (rounds : List Round) : Nat :=
  1 + (rounds.map fun r => (r.chunks.map fun c => c.text.length + 2).sum + 1).sum

structure Overwrites (old : Text) (f : File) : Prop where
  position : f.position = f.written.length
  bytes : f.bytes = f.written ++ old.drop f.written.length

theorem Overwrites.write {old : Text} {f : File} (h : Overwrites old f) (data : Text) :
    Overwrites old (writeAtCurrentPos data f) := by
  refine ⟨by simp [writeAtCurrentPos, h.position], ?_⟩
  simp only [writeAtCurrentPos, h.position, h.bytes, List.length_append, List.take_left]
  rw [List.drop_append, List.drop_of_length_le (Nat.le_add_right _ _), Nat.add_sub_cancel_left,
    List.drop_drop, List.nil_append]

theorem flushCallback_written (eventsStr : Text) (hasMoreEvents : Bool) (f : File) :
    (flushCallback eventsStr hasMoreEvents f).written =
      f.written ++
        (eventsStr ++ comma ++ (if hasMoreEvents then newline else newline ++ newline)) := by
  cases hasMoreEvents <;> simp [flushCallback, writeAtCurrentPos]

theorem Overwrites.callback {old : Text} {f : File} (h : Overwrites old f) (eventsStr : Text)
    (hasMoreEvents : Bool) : Overwrites old (flushCallback eventsStr hasMoreEvents f) := by
  have separated := (h.write eventsStr).write (comma ++ newline)
  rw [flushCallback]
  split
  · exact separated.write newline
  · exact separated

def Round.pieces (r : Round) : List (Chunk × Text) :=
  r.more.map (fun c => (c, newline)) ++ [(r.last, newline ++ newline)]

def pieceText (p : Chunk × Text) : Text := p.1.text ++ comma ++ p.2

theorem flushCallbacks_written (cs : List Chunk) (f : File) :
    (cs.foldl (fun f c => flushCallback c.text true f) f).written =
      f.written ++ (cs.map fun c => (c, newline)).flatMap pieceText := by
  induction cs generalizing f with
  | nil => simp
  | cons c cs ih =>
    rw [List.foldl_cons, ih, flushCallback_written, List.map_cons, List.flatMap_cons,
      List.append_assoc]
    rfl

theorem flushTrace_written (r : Round) (f : File) :
    (flushTrace r f).written = f.written ++ r.pieces.flatMap pieceText := by
  rw [flushTrace, flushCallback_written, flushCallbacks_written, Round.pieces, List.flatMap_append,
    List.append_assoc]
  simp [pieceText]

theorem run_written (platform : Platform) (old : Text) (rounds : List Round) :
    (run platform old rounds).written =
      [ascii '['] ++ (rounds.flatMap Round.pieces).flatMap pieceText := by
  have folded (f : File) : (rounds.foldl (fun f r => flushTrace r f) f).written =
      f.written ++ (rounds.flatMap Round.pieces).flatMap pieceText := by
    induction rounds generalizing f with
    | nil => simp
    | cons r rounds ih =>
      rw [List.foldl_cons, ih, flushTrace_written, List.flatMap_cons, List.flatMap_append,
        List.append_assoc]
  rw [run, folded]
  rfl

theorem flushTrace_overwrites {old : Text} {f : File} (h : Overwrites old f) (r : Round) :
    Overwrites old (flushTrace r f) := by
  have folded : Overwrites old (r.more.foldl (fun f c => flushCallback c.text true f) f) := by
    induction r.more generalizing f with
    | nil => exact h
    | cons c cs ih => exact ih (h.callback c.text true)
  exact folded.callback r.last.text false

theorem run_overwrites (platform : Platform) (old : Text) (rounds : List Round) :
    Overwrites (opened old platform) (run platform old rounds) := by
  have folded (f : File) (h : Overwrites (opened old platform) f) :
      Overwrites (opened old platform) (rounds.foldl (fun f r => flushTrace r f) f) := by
    induction rounds generalizing f with
    | nil => exact h
    | cons r rounds ih => exact ih _ (flushTrace_overwrites h r)
  refine folded _ (Overwrites.write ⟨rfl, ?_⟩ _)
  cases platform <;> rfl

theorem run_bytes_iff (platform : Platform) (old : Text) (rounds : List Round) :
    (run platform old rounds).bytes = (run platform old rounds).written ↔
      platform = .posix ∨ old.length ≤ (run platform old rounds).written.length := by
  have overwrites := run_overwrites platform old rounds
  rw [overwrites.bytes, List.append_right_eq_self, List.drop_eq_nil_iff]
  cases platform <;> simp [opened]

theorem written_length (platform : Platform) (old : Text) (rounds : List Round) :
    (run platform old rounds).written.length = traceLength rounds := by
  rw [run_written, List.length_append, traceLength, List.length_singleton]
  congr 1
  induction rounds with
  | nil => rfl
  | cons r rounds ih =>
    rw [List.flatMap_cons, List.flatMap_append, List.length_append, ih, List.map_cons,
      List.sum_cons]
    have round : (r.pieces.flatMap pieceText).length =
        (r.chunks.map fun c => c.text.length + 2).sum + 1 := by
      simp [Round.pieces, Round.chunks, pieceText, comma, newline, List.length_flatMap,
        Function.comp_def, Nat.add_assoc]
    rw [round]

theorem rdropWhile_blank {b : Text} (blank : Blank b) (t : Text) :
    (t ++ b).rdropWhile isSpace = t.rdropWhile isSpace := by
  induction b using List.reverseRecOn with
  | nil => rw [List.append_nil]
  | append_singleton b space ih =>
    rw [← List.append_assoc, List.rdropWhile_concat_pos _ _ _ (blank space (by simp))]
    exact ih fun c member => blank c (List.mem_append_left _ member)

theorem completed_comma (t : Text) {b : Text} (blank : Blank b) :
    completed (t ++ comma ++ b) = t ++ [ascii ']'] := by
  have stays : (t ++ comma).rdropWhile isSpace = t ++ comma :=
    List.rdropWhile_concat_neg _ _ _ (by decide)
  rw [completed, rdropWhile_blank blank, stays]
  simp [dropComma, comma]

theorem completed_pieces (ps : List (Chunk × Text)) (c : Chunk) {b : Text} (blank : Blank b) :
    completed ([ascii '['] ++ (ps ++ [(c, b)]).flatMap pieceText) =
      [ascii '['] ++ (ps.flatMap pieceText ++ c.text) ++ [ascii ']'] := by
  rw [← completed_comma _ blank]
  simp [pieceText]

theorem pieces_blank (rounds : List Round) :
    ∀ p ∈ rounds.flatMap Round.pieces, Blank p.2 := by
  have newline_blank : Blank newline := by
    intro b member
    rw [List.mem_singleton.mp member]
    decide
  intro p member
  obtain ⟨r, -, member⟩ := List.mem_flatMap.mp member
  rcases List.mem_append.mp member with more | last
  · obtain ⟨c, -, rfl⟩ := List.mem_map.mp more
    exact newline_blank
  · rw [List.mem_singleton.mp last]
    exact newline_blank.append newline_blank

theorem pieces_chunks (rounds : List Round) :
    (rounds.flatMap Round.pieces).map Prod.fst = chunks rounds := by
  rw [chunks, List.map_flatMap]
  congr 1
  funext r
  simp [Round.pieces, Round.chunks, Function.comp_def]

theorem pieces_separated (ps : List (Chunk × Text)) (c : Chunk) (blank : ∀ p ∈ ps, Blank p.2)
    (events : ∀ chunk ∈ ps.map Prod.fst ++ [c], chunk.events ≠ []) :
    Separated ((ps.map Prod.fst ++ [c]).flatMap Chunk.events) (ps.flatMap pieceText ++ c.text) := by
  have separated (chunk : Chunk) (some : chunk.events ≠ []) :
      Separated chunk.events chunk.text :=
    chunk.separated.resolve_left fun none => some none.1
  induction ps with
  | nil => simpa using separated c (events c (by simp))
  | cons p ps ih =>
    have rest := ih (fun q member => blank q (List.mem_cons_of_mem _ member))
      fun chunk member => events chunk (List.mem_cons_of_mem _ member)
    have first := separated p.1 (events p.1 List.mem_cons_self)
    have joined := first.append (rest.blank_append (blank p List.mem_cons_self))
    simpa [pieceText] using joined

theorem Chunk.commas (c : Chunk) :
    JsonText.commas c.text = (c.events.map JsonText.commas).sum + (c.events.length - 1) := by
  rcases c.separated with ⟨events, text⟩ | separated
  · rw [events, text]
    rfl
  · have counted := separated.commas
    have positive := List.length_pos_iff.mpr separated.ne_nil
    omega

theorem pieces_commas (ps : List (Chunk × Text)) (c : Chunk) (blank : ∀ p ∈ ps, Blank p.2) :
    JsonText.commas (ps.flatMap pieceText ++ c.text) =
      (((ps.map Prod.fst ++ [c]).flatMap Chunk.events).map JsonText.commas).sum +
      ((ps.map Prod.fst ++ [c]).map fun chunk => chunk.events.length - 1).sum + ps.length := by
  induction ps with
  | nil => simp [Chunk.commas]
  | cons p ps ih =>
    have rest := ih fun q member => blank q (List.mem_cons_of_mem _ member)
    simp only [List.flatMap_cons, List.append_assoc, commas_append, pieceText, Chunk.commas,
      commas_comma, commas_blank (blank p List.mem_cons_self), List.map_cons, List.cons_append,
      List.map_append, List.sum_append, List.sum_cons, List.length_cons] at rest ⊢
    omega

def Separable (cs : List Chunk) : Prop := (∀ c ∈ cs, c.events ≠ []) ∨ cs.length = 1

theorem separable_of_commas {cs : List Chunk}
    (same : (cs.map fun c => c.events.length - 1).sum + cs.length =
      (cs.flatMap Chunk.events).length - 1 + 1) : Separable cs := by
  have counted : (cs.map fun c => c.events.length - 1).sum + cs.length =
      (cs.flatMap Chunk.events).length + cs.countP fun c => c.events.isEmpty := by
    clear same
    induction cs with
    | nil => rfl
    | cons c cs ih =>
      simp only [List.map_cons, List.sum_cons, List.length_cons, List.flatMap_cons,
        List.length_append, List.countP_cons]
      cases c.events with
      | nil =>
        simp only [List.length_nil, List.isEmpty_nil, if_true]
        omega
      | cons event events =>
        simp only [List.length_cons, List.isEmpty_cons, Bool.false_eq_true, if_false]
        omega
  have bound := cs.countP_le_length (p := fun c => c.events.isEmpty)
  by_cases none : cs.countP (fun c => c.events.isEmpty) = 0
  · refine .inl fun c member empty => ?_
    exact List.countP_eq_zero.mp none c member (List.isEmpty_iff.mpr empty)
  · exact .inr (by omega)

theorem exists_last_piece {rounds : List Round} (some : rounds ≠ []) :
    ∃ ps c b, rounds.flatMap Round.pieces = ps ++ [(c, b)] ∧ Blank b ∧ (∀ p ∈ ps, Blank p.2) ∧
      chunks rounds = ps.map Prod.fst ++ [c] := by
  have pieces : rounds.flatMap Round.pieces ≠ [] := by
    obtain ⟨r, rest, rfl⟩ := List.exists_cons_of_ne_nil some
    simp [Round.pieces]
  obtain ⟨ps, ⟨c, b⟩, split⟩ := (List.eq_nil_or_concat' _).resolve_left pieces
  have blank := pieces_blank rounds
  rw [split] at blank
  refine ⟨ps, c, b, split, blank (c, b) (by simp), fun p member => blank p (by simp [member]), ?_⟩
  rw [← pieces_chunks, split, List.map_append]
  rfl

theorem array_iff (platform : Platform) (old : Text) (rounds : List Round) :
    IsArray ((chunks rounds).flatMap Chunk.events)
      (completed (run platform old rounds).written) ↔ Separable (chunks rounds) := by
  have values : ∀ e ∈ (chunks rounds).flatMap Chunk.events, Value e := by
    intro e member
    obtain ⟨c, -, event⟩ := List.mem_flatMap.mp member
    exact (c.objects e event).1
  rw [run_written, IsArray, and_iff_right values]
  by_cases none : rounds = []
  · subst none
    refine iff_of_true ⟨[], by decide, .inl ⟨rfl, by simp [Blank]⟩⟩ (.inl (by simp [chunks]))
  obtain ⟨ps, c, b, pieces, last_blank, blank, split⟩ := exists_last_piece none
  rw [pieces, completed_pieces ps c last_blank, split]
  constructor
  · intro array
    have counted := IsArray.commas ⟨by rw [← split]; exact values, array⟩
    rw [commas_brackets, pieces_commas ps c blank] at counted
    refine separable_of_commas ?_
    rw [List.length_append, List.length_map, List.length_singleton]
    omega
  · rintro (events | single)
    · exact ⟨_, rfl, .inr (pieces_separated ps c blank events)⟩
    · have alone : ps = [] := by simpa using single
      subst alone
      refine ⟨_, rfl, ?_⟩
      simpa using c.separated.imp_left fun empty => ⟨empty.1, by simp [empty.2, Blank]⟩

/-- The file is one trace exactly if the old content was truncated or is no longer
than the trace, and there is no empty chunk but one that came alone. -/
theorem oneTrace_iff (platform : Platform) (old : Text) (rounds : List Round) :
    OneTrace (run platform old rounds) ((chunks rounds).flatMap Chunk.events) ↔
      (platform = .posix ∨ old.length ≤ traceLength rounds) ∧ Separable (chunks rounds) := by
  rw [← array_iff platform old rounds, ← written_length platform old rounds,
    ← run_bytes_iff platform old rounds]
  constructor
  · rintro ⟨bytes, array⟩
    exact ⟨bytes, bytes ▸ array⟩
  · rintro ⟨bytes, array⟩
    exact ⟨bytes, bytes ▸ array⟩

def emptyChunk : Chunk := ⟨[], [], by simp, .inl ⟨rfl, rfl⟩⟩

def emptyRound : Round := ⟨[], emptyChunk⟩

theorem long_file_or_empty_flush :
    ¬ OneTrace (run .windows (List.replicate 8 (ascii 'x')) [emptyRound]) [] ∧
    ¬ OneTrace (run .posix [] [emptyRound, emptyRound]) [] := by
  refine ⟨fun trace => absurd trace.bytes (by decide), fun trace => ?_⟩
  have array := trace.array
  rw [trace.bytes] at array
  have separable := (array_iff .posix [] [emptyRound, emptyRound]).mp array
  exact separable.elim (fun events => events emptyChunk List.mem_cons_self rfl) (by decide)

end ChromiumDemo.TraceFile
