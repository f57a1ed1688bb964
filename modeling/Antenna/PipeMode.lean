import Antenna.PipelineCore
import Antenna.RunLoop

/-!
The program over standard input and output, as `main` starts it without a port. Reading a line blocks
until there is one, and the tick reads until there is none.
-/

namespace LeanAntenna

open Text Replay Transition

/-- `BufRead::read_line`: the bytes up to a newline and with it, or all of them. -/
def cutPiece (bytes : List UInt8) : List UInt8 × List UInt8 :=
  let behind := bytes.dropWhile (· ≠ 10)
  (bytes.takeWhile (· ≠ 10) ++ behind.take 1, behind.drop 1)

/-- What `PipeIn::recv` makes of the bytes of a line: the end of the input and bytes that are not
UTF-8 give nothing. -/
def pieceLine (piece : List UInt8) : Option Text :=
  if piece = [] then none else (Utf8.decode piece).map trim

/-- `PipeOut::send` -/
def pipeLine (line : Text) : List UInt8 := Utf8.encode line ++ [10]

/-- `written` and `pieces` note what was written to the standard input and what the reads took. -/
structure PipeProcess (Store Carrier : Type) where
  context : Context Store Carrier
  stage : WorkerStage
  unread : List UInt8
  closed : Bool
  written : List UInt8
  pieces : List (List UInt8)
  output : List UInt8
  performed : List (Activity Carrier)

/-- The steps of who feeds the standard input, and those of the worker. -/
inductive PipeStep (Carrier : Type) where
  | write (bytes : List UInt8)
  | close
  | receive
  | move (move : TickMove Carrier)

namespace PipeProcess

variable {Store Carrier : Type} (host : Host Store Carrier)

/-- The prefixes go out before the first tick. -/
def start (context : Context Store Carrier) : PipeProcess Store Carrier where
  context
  stage := .polling
  unread := []
  closed := false
  written := []
  pieces := []
  output := pipeLine (trim turtleHeader)
  performed := []

def perform (process : PipeProcess Store Carrier) (activity : Activity Carrier)
    (stage : WorkerStage) : PipeProcess Store Carrier :=
  let context := process.context.perform host activity
  { process with
    context
    stage
    output := process.output ++ (AntennaHandle.fresh process.context context).flatMap pipeLine
    performed := process.performed ++ [activity] }

/-- A read of the input loop that does not block. -/
def receive (process : PipeProcess Store Carrier) : PipeProcess Store Carrier :=
  let (piece, unread) := cutPiece process.unread
  let taken := { process with unread, pieces := process.pieces ++ [piece] }
  match pieceLine piece with
  | none => { taken with stage := .queries }
  | some line => taken.perform host (.line line) .lines

def take (process : PipeProcess Store Carrier) :
    Option (Activity Carrier) × WorkerStage → PipeProcess Store Carrier
  | (some activity, stage) => process.perform host activity stage
  | (none, stage) => { process with stage }

/-- A step that cannot be taken gives `none`. -/
def step (process : PipeProcess Store Carrier) :
    PipeStep Carrier → Option (PipeProcess Store Carrier)
  | .write bytes =>
      if process.closed then none
      else some { process with
        unread := process.unread ++ bytes
        written := process.written ++ bytes }
  | .close => some { process with closed := true }
  | .receive =>
      if process.stage ∈ [.events, .lines] ∧ (10 ∈ process.unread ∨ process.closed = true) then
        some (process.receive host)
      else none
  | .move move => (move.leads process.stage).map (process.take host)

end PipeProcess

section Reading

variable {bytes : List UInt8}

theorem cutPiece_append : (cutPiece bytes).1 ++ (cutPiece bytes).2 = bytes := by
  simp only [cutPiece]
  rw [List.append_assoc, List.take_append_drop, List.takeWhile_append_dropWhile]

/-- A line that is complete. -/
def CompleteLine (piece : List UInt8) : Prop := ∃ front, 10 ∉ front ∧ piece = front ++ [10]

theorem cutPiece_complete (ends : 10 ∈ bytes) : CompleteLine (cutPiece bytes).1 := by
  refine ⟨bytes.takeWhile (· ≠ 10), ?_, ?_⟩
  · intro member
    simpa using List.mem_takeWhile_imp member
  · have newline : (bytes.dropWhile (· ≠ 10)).head? = some 10 := by
      induction bytes with
      | nil => simp at ends
      | cons byte rest ih =>
          by_cases here : byte = 10
          · simp [here]
          · rw [List.dropWhile_cons_of_pos (by simpa using here)]
            exact ih ((List.mem_cons.mp ends).resolve_left (Ne.symm here))
    obtain ⟨rest, split⟩ := List.head?_eq_some_iff.mp newline
    simp only [cutPiece, split]
    rfl

theorem cutPiece_rest (whole : 10 ∉ bytes) : cutPiece bytes = (bytes, []) := by
  have same : bytes.takeWhile (· ≠ 10) = bytes := by
    apply List.takeWhile_eq_self_iff.mpr
    intro byte member
    have other : byte ≠ 10 := fun newline => whole (newline ▸ member)
    simpa using other
  have nothing : bytes.dropWhile (· ≠ 10) = [] := by
    apply List.dropWhile_eq_nil_iff.mpr
    intro byte member
    have other : byte ≠ 10 := fun newline => whole (newline ▸ member)
    simpa using other
  simp only [cutPiece, same, nothing]
  simp

end Reading

namespace PipeProcess

variable {Store Carrier : Type} {host : Host Store Carrier} {begins : Context Store Carrier}
  {process next : PipeProcess Store Carrier}

open AntennaHandle (fresh inputLines)

/-- The process did what ticks do one after the other, the last one perhaps in part, on the lines of
the pieces it read; and its output holds what they sent. -/
structure Runs (host : Host Store Carrier) (begins : Context Store Carrier)
    (process : PipeProcess Store Carrier) : Prop where
  ticking : Ticking host begins process.context process.stage process.performed
  bytes : process.pieces.flatten ++ process.unread = process.written
  pieces : ∀ piece ∈ process.pieces, CompleteLine piece ∨ process.closed = true ∧ 10 ∉ piece
  lines : inputLines process.performed = process.pieces.filterMap pieceLine
  output : process.output = pipeLine (trim turtleHeader) ++
    (fresh begins process.context).flatMap pipeLine

theorem start_runs : (start begins).Runs host begins where
  ticking := .start
  bytes := rfl
  pieces piece member := absurd member List.not_mem_nil
  lines := rfl
  output := by
    change pipeLine _ = pipeLine _ ++ (begins.world.sent.drop begins.world.sent.length).flatMap _
    rw [List.drop_length]
    exact (List.append_nil _).symm

/-- An activity, in front of which a read may have taken a piece. -/
theorem Runs.perform (runs : process.Runs host begins) {activity : Activity Carrier}
    {stage : WorkerStage} (advances : Advances process.stage activity stage)
    {unread : List UInt8} {pieces : List (List UInt8)}
    (bytes : (process.pieces ++ pieces).flatten ++ unread = process.written)
    (whole : ∀ piece ∈ pieces, CompleteLine piece ∨ process.closed = true ∧ 10 ∉ piece)
    (lines : activity.input.toList = pieces.filterMap pieceLine) :
    ({ process with unread, pieces := process.pieces ++ pieces }.perform host activity stage).Runs
      host begins where
  ticking := runs.ticking.perform advances
  bytes := bytes
  pieces piece member := (List.mem_append.mp member).elim (runs.pieces piece) (whole piece)
  lines := by
    change inputLines (process.performed ++ [activity]) = (process.pieces ++ pieces).filterMap pieceLine
    rw [AntennaHandle.inputLines_snoc, List.filterMap_append, ← runs.lines, ← lines]
  output := by
    change process.output ++ _ = _
    rw [runs.output, List.append_assoc, ← List.flatMap_append, ← runs.ticking.fresh_perform]
    rfl

theorem Runs.activity (runs : process.Runs host begins) {activity : Activity Carrier}
    {stage : WorkerStage} (advances : Advances process.stage activity stage)
    (unread : activity.input = none) : (process.perform host activity stage).Runs host begins := by
  have bytes : (process.pieces ++ []).flatten ++ process.unread = process.written := by
    rw [List.append_nil]
    exact runs.bytes
  have performed := runs.perform advances bytes (by simp) (by simp [unread])
  rw [List.append_nil] at performed
  exact performed

theorem Runs.pass (runs : process.Runs host begins) {stage : WorkerStage}
    (passes : Passes process.stage stage) : { process with stage }.Runs host begins :=
  { runs with ticking := runs.ticking.pass passes }

/-- The piece of a read that does not block is a line, or what is left of a closed input. -/
theorem cutPiece_whole (awake : 10 ∈ process.unread ∨ process.closed = true) :
    CompleteLine (cutPiece process.unread).1 ∨
      process.closed = true ∧ 10 ∉ (cutPiece process.unread).1 := by
  by_cases ends : 10 ∈ process.unread
  · exact Or.inl (cutPiece_complete ends)
  · rw [cutPiece_rest ends]
    exact Or.inr ⟨awake.resolve_left ends, ends⟩

theorem Runs.receive (runs : process.Runs host begins) (reading : process.stage ∈ [.events, .lines])
    (awake : 10 ∈ process.unread ∨ process.closed = true) :
    (process.receive host).Runs host begins := by
  have whole := cutPiece_whole awake
  have bytes : (process.pieces ++ [(cutPiece process.unread).1]).flatten ++
      (cutPiece process.unread).2 = process.written := by
    rw [List.flatten_append, List.flatten_singleton, List.append_assoc, cutPiece_append, runs.bytes]
  unfold PipeProcess.receive
  dsimp only
  cases read : pieceLine (cutPiece process.unread).1 with
  | none =>
      have taken : { process with
          unread := (cutPiece process.unread).2
          pieces := process.pieces ++ [(cutPiece process.unread).1] }.Runs host begins := {
        runs with
        bytes := bytes
        pieces := fun piece member => (List.mem_append.mp member).elim (runs.pieces piece)
          fun last => List.mem_singleton.mp last ▸ whole
        lines := by simp [runs.lines, read] }
      exact taken.pass (.read reading)
  | some line =>
      refine runs.perform (.line reading line) bytes ?_ (by simp [read, Activity.input])
      intro piece member
      rw [List.mem_singleton.mp member]
      exact whole

theorem step_runs {action : PipeStep Carrier} (runs : process.Runs host begins)
    (stepped : process.step host action = some next) : next.Runs host begins := by
  cases action with
  | write bytes =>
      simp only [step] at stepped
      split at stepped
      · cases stepped
      · cases stepped
        exact { runs with bytes := by rw [← List.append_assoc, runs.bytes] }
  | close =>
      cases stepped
      exact { runs with
        pieces := fun piece member => (runs.pieces piece member).imp_right fun rest => ⟨rfl, rest.2⟩ }
  | receive =>
      simp only [step] at stepped
      split at stepped
      · rename_i ready
        cases stepped
        exact runs.receive ready.1 ready.2
      · cases stepped
  | move move =>
      obtain ⟨⟨activity, stage⟩, leads, rfl⟩ := Option.map_eq_some_iff.mp stepped
      cases activity with
      | none => exact runs.pass (TickMove.passes leads)
      | some activity =>
          obtain ⟨advances, unread⟩ := TickMove.advances leads
          exact runs.activity advances unread

theorem run_runs {actions : List (PipeStep Carrier)}
    (ran : runSteps (step host) (start begins) actions = some process) : process.Runs host begins :=
  runSteps_preserves (fun _ _ => True) (Runs host begins)
    (fun _ _ _ runs _ stepped => step_runs runs stepped) start_runs
    (stepsMeet_of_forall (fun _ _ => trivial) _) ran

/-- However the input is fed, the program does what ticks do one after the other on its lines: every
line once, in order and trimmed, but for those that are not UTF-8. The output is the prefixes and
what the ticks send. -/
theorem pipe_run_is_ticks {actions : List (PipeStep Carrier)}
    (ran : runSteps (step host) (start begins) actions = some process) :
    ∃ (ticks : List (TickInputs Carrier)) (part : List (Activity Carrier)) (last : TickInputs Carrier),
      part <+: last.activities ∧
      process.context =
        replay (Context.perform host) (replay (Context.tick host) begins ticks) part ∧
      inputLines (ticks.flatMap TickInputs.activities ++ part) = process.pieces.filterMap pieceLine ∧
      process.pieces.flatten ++ process.unread = process.written ∧
      (∀ piece ∈ process.pieces, CompleteLine piece ∨ process.closed = true ∧ 10 ∉ piece) ∧
      process.output = pipeLine (trim turtleHeader) ++
        (fresh begins process.context).flatMap pipeLine := by
  have runs := run_runs ran
  obtain ⟨ticks, part, last, front, performed, worker⟩ := runs.ticking.whole
  refine ⟨ticks, part, last, front, worker, ?_, runs.bytes, runs.pieces, runs.output⟩
  rw [← performed, runs.lines]

/-- A statement is written while the input stays open. -/
def openRun : List (PipeStep Unit) :=
  [.move .poll, .write (Utf8.encode " <a> <b> <c> .\n".toList), .move .startup, .move .bootstrap,
    .move (.iterate () true), .receive]

theorem openRun_ran : ∃ process, runSteps (step idleHost) (start (settled [])) openRun =
    some process ∧ process.pieces = [Utf8.encode " <a> <b> <c> .\n".toList] ∧
      process.closed = false := by
  have facts : (runSteps (step idleHost) (start (settled [])) openRun).map
      (fun process => (process.pieces, process.closed)) =
        some ([Utf8.encode " <a> <b> <c> .\n".toList], false) := by decide
  obtain ⟨process, ran, seen⟩ := Option.map_eq_some_iff.mp facts
  obtain ⟨pieces, opened⟩ := Prod.mk.inj seen
  exact ⟨process, ran, pieces, opened⟩

theorem pipe_run_is_ticks_open :
    ∃ (process : PipeProcess Unit Unit) (ticks : List (TickInputs Unit)) (part : List (Activity Unit)),
      runSteps (step idleHost) (start (settled [])) openRun = some process ∧
        inputLines (ticks.flatMap TickInputs.activities ++ part) = ["<a> <b> <c> .".toList] := by
  obtain ⟨process, ran, pieces, -⟩ := openRun_ran
  obtain ⟨ticks, part, last, -, -, lines, -⟩ := pipe_run_is_ticks ran
  refine ⟨process, ticks, part, ran, lines.trans ?_⟩
  rw [pieces]
  decide

section Parking

/-- The activity that iterates the carrier. -/
def clocks : Activity Carrier → Bool
  | .clock _ => true
  | _ => false

/-- The activities with which a tick serves the scripts. -/
def serves : Activity Carrier → Bool
  | .query _ | .emit _ => true
  | _ => false

/-- The reads that found no line. -/
def ends (process : PipeProcess Store Carrier) : Nat :=
  process.pieces.countP fun piece => pieceLine piece = none

def iterations (process : PipeProcess Store Carrier) : Nat := process.performed.countP clocks

/-- Whether the worker has iterated the carrier since the last read that found no line. -/
def inLoop (stage : WorkerStage) : Nat := if stage ∈ [.events, .lines, .stopped] then 1 else 0

/-- Only a read that finds no line lets the worker out of its input loop. -/
structure Parked (process : PipeProcess Store Carrier) : Prop where
  counted : process.iterations = process.ends + inLoop process.stage
  quiet : process.ends = 0 →
    (∀ activity ∈ process.performed, serves activity = false) ∧ process.stage ∉ [.queries, .emits]

theorem Parked.perform (parked : process.Parked) {activity : Activity Carrier} {stage : WorkerStage}
    (left : process.stage ∉ [.queries, .emits] → serves activity = false ∧ stage ∉ [.queries, .emits])
    (moved : inLoop stage = inLoop process.stage + if clocks activity then 1 else 0) :
    (process.perform host activity stage).Parked := by
  obtain ⟨counted, quiet⟩ := parked
  refine ⟨?_, fun none => ?_⟩
  · have more : (process.perform host activity stage).iterations =
        process.iterations + if clocks activity then 1 else 0 := by
      simp [PipeProcess.iterations, PipeProcess.perform, List.countP_append, List.countP_cons]
    change _ = process.ends + inLoop stage
    rw [more, counted, moved]
    omega
  · obtain ⟨before, outside⟩ := quiet none
    obtain ⟨here, stays⟩ := left outside
    refine ⟨fun other member => ?_, stays⟩
    rcases List.mem_append.mp member with earlier | last
    · exact before other earlier
    · rw [List.mem_singleton.mp last]
      exact here

theorem Parked.pass (parked : process.Parked) {stage : WorkerStage}
    (same : inLoop stage = inLoop process.stage) (outside : stage ∉ [.queries, .emits]) :
    { process with stage }.Parked :=
  ⟨parked.counted.trans (congrArg (process.ends + ·) same.symm),
    fun none => ⟨(parked.quiet none).1, outside⟩⟩

theorem inLoop_reading {stage : WorkerStage} (reading : stage ∈ [.events, .lines]) :
    inLoop stage = 1 := by
  apply if_pos
  cases stage <;> simp at reading ⊢

theorem inLoop_pumping {stage : WorkerStage} (pumping : stage ∈ [.queries, .emits]) :
    inLoop stage = 0 := by
  apply if_neg
  cases stage <;> simp at pumping ⊢

theorem Parked.receive (parked : process.Parked) (reading : process.stage ∈ [.events, .lines]) :
    (process.receive host).Parked := by
  obtain ⟨counted, quiet⟩ := parked
  have grown : (process.pieces ++ [(cutPiece process.unread).1]).countP
        (fun piece => pieceLine piece = none) =
      process.ends + if pieceLine (cutPiece process.unread).1 = none then 1 else 0 := by
    simp [PipeProcess.ends, List.countP_append, List.countP_cons]
  rw [inLoop_reading reading] at counted
  unfold PipeProcess.receive
  dsimp only
  cases read : pieceLine (cutPiece process.unread).1 with
  | none =>
      rw [read, if_pos rfl] at grown
      exact ⟨counted.trans grown.symm, fun none => absurd (grown.symm.trans none) (by omega)⟩
  | some line =>
      rw [read, if_neg (by simp), Nat.add_zero] at grown
      have taken : ({ process with
          unread := (cutPiece process.unread).2
          pieces := process.pieces ++ [(cutPiece process.unread).1] } :
            PipeProcess Store Carrier).Parked := by
        refine ⟨?_, fun none => quiet (grown.symm.trans none)⟩
        change process.iterations = List.countP _ _ + inLoop process.stage
        rw [grown, inLoop_reading reading]
        exact counted
      exact taken.perform (fun _ => ⟨rfl, by decide⟩) (inLoop_reading reading).symm

theorem Parked.take (parked : process.Parked) {move : TickMove Carrier}
    {led : Option (Activity Carrier) × WorkerStage} (leads : move.leads process.stage = some led) :
    (process.take host led).Parked := by
  cases move with
  | poll =>
      simp only [TickMove.leads, Option.ite_none_right_eq_some, Option.some.injEq] at leads
      obtain ⟨here, rfl⟩ := leads
      exact parked.pass (by rw [here]; rfl) (by decide)
  | startup =>
      simp only [TickMove.leads, Option.ite_none_right_eq_some, Option.some.injEq] at leads
      obtain ⟨here, rfl⟩ := leads
      exact parked.perform (fun _ => ⟨rfl, by decide⟩) (by rw [here]; rfl)
  | bootstrap =>
      simp only [TickMove.leads, Option.ite_none_right_eq_some, Option.some.injEq] at leads
      obtain ⟨here, rfl⟩ := leads
      exact parked.perform (fun _ => ⟨rfl, by decide⟩) (by rw [here]; rfl)
  | iterate carrier succeeds =>
      simp only [TickMove.leads, Option.ite_none_right_eq_some, Option.some.injEq] at leads
      obtain ⟨here, rfl⟩ := leads
      cases succeeds with
      | false => exact parked.perform (fun _ => ⟨rfl, by decide⟩) (by rw [here]; rfl)
      | true => exact parked.perform (fun _ => ⟨rfl, by decide⟩) (by rw [here]; rfl)
  | event arrived =>
      simp only [TickMove.leads, Option.ite_none_right_eq_some, Option.some.injEq] at leads
      obtain ⟨here, rfl⟩ := leads
      exact parked.perform (fun _ => ⟨rfl, by decide⟩) (by rw [here]; rfl)
  | query sparql =>
      simp only [TickMove.leads, Option.ite_none_right_eq_some, Option.some.injEq] at leads
      obtain ⟨here, rfl⟩ := leads
      exact parked.perform (fun outside => absurd (by simp [here]) outside) (by rw [here]; rfl)
  | emit line =>
      simp only [TickMove.leads, Option.ite_none_right_eq_some, Option.some.injEq] at leads
      obtain ⟨pumping, rfl⟩ := leads
      exact parked.perform (fun outside => absurd pumping outside)
        (by rw [inLoop_pumping pumping]; rfl)
  | finish =>
      simp only [TickMove.leads, Option.ite_none_right_eq_some, Option.some.injEq] at leads
      obtain ⟨pumping, rfl⟩ := leads
      exact parked.pass (by rw [inLoop_pumping pumping]; rfl) (by decide)

theorem step_parked {action : PipeStep Carrier} (parked : process.Parked)
    (stepped : process.step host action = some next) : next.Parked := by
  cases action with
  | write bytes =>
      simp only [step] at stepped
      split at stepped
      · cases stepped
      · cases stepped
        exact ⟨parked.counted, parked.quiet⟩
  | close =>
      cases stepped
      exact ⟨parked.counted, parked.quiet⟩
  | receive =>
      simp only [step] at stepped
      split at stepped
      · rename_i ready
        cases stepped
        exact parked.receive ready.1
      · cases stepped
  | move move =>
      obtain ⟨led, leads, rfl⟩ := Option.map_eq_some_iff.mp stepped
      exact parked.take leads

theorem run_parked {actions : List (PipeStep Carrier)}
    (ran : runSteps (step host) (start begins) actions = some process) : process.Parked := by
  have begun : (start begins).Parked :=
    ⟨rfl, fun _ => ⟨fun _ member => absurd member List.not_mem_nil, nofun⟩⟩
  exact runSteps_preserves (fun _ _ => True) Parked
    (fun _ _ _ parked _ stepped => step_parked parked stepped) begun
    (stepsMeet_of_forall (fun _ _ => trivial) _) ran

/-- As long as the input is open, only a line that is not UTF-8 lets the worker out of the first
tick: until then the carrier is iterated once at most, and no script is served. -/
theorem open_input_parks_worker {actions : List (PipeStep Carrier)}
    (ran : runSteps (step host) (start begins) actions = some process)
    (opened : process.closed = false) :
    process.iterations ≤ (process.pieces.countP fun piece => Utf8.decode piece = none) + 1 ∧
      ((∀ piece ∈ process.pieces, Utf8.decode piece ≠ none) →
        ∀ activity ∈ process.performed, serves activity = false) := by
  obtain ⟨counted, quiet⟩ := run_parked ran
  have undecoded : process.ends = process.pieces.countP fun piece => Utf8.decode piece = none := by
    apply List.countP_congr
    intro piece member
    have nonempty : piece ≠ [] := by
      rcases (run_runs ran).pieces piece member with ⟨front, -, rfl⟩ | ⟨closed, -⟩
      · simp
      · rw [opened] at closed
        contradiction
    simp [pieceLine, nonempty]
  refine ⟨?_, fun decoded => ?_⟩
  · have once : inLoop process.stage ≤ 1 := by
      unfold inLoop
      split <;> omega
    rw [← undecoded, counted]
    omega
  · apply (quiet _).1
    rw [undecoded, List.countP_eq_zero]
    intro piece member
    simpa using decoded piece member

theorem open_input_parks_worker_open :
    ∃ (process : PipeProcess Unit Unit),
      runSteps (step idleHost) (start (settled [])) openRun = some process ∧
        process.iterations ≤ 1 := by
  obtain ⟨process, ran, pieces, opened⟩ := openRun_ran
  have bound := (open_input_parks_worker ran opened).1
  have decoded : (process.pieces.countP fun piece => Utf8.decode piece = none) = 0 := by
    rw [pieces]
    decide
  exact ⟨process, ran, by omega⟩

end Parking

end PipeProcess

end LeanAntenna
