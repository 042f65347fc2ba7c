import Mathlib.Data.List.Forall2
import Polyglot.Proofs.Channel.Account
import Polyglot.Proofs.Text.Trimming

/-!
# Runs on one aggregator

Several runs can be collected one after the other on the same aggregator.  The chunks of a stream
are put together, each ended by a line feed, and what is returned of them is trimmed.  A stream
knows nothing of the other one, and a run knows nothing of those that were finished before it.
-/

namespace Polyglot

open Text

namespace Aggregator

/-- What was collected on a stream. -/
def on (output : Aggregator) : Stream → String
  | .stdout => output.stdout
  | .stderr => output.stderr

/-- The texts of the chunks of one stream. -/
def textsOn (stream : Stream) (chunks : List Chunk) : List String :=
  (chunks.filter (·.1 = stream)).map (·.2)

/-- The text of a chunk as it is collected: a line feed is added unless it ends in one. -/
inductive IsEnded : String → String → Prop where
  | already {text : String} : text.toList.getLast? = some '\n' → IsEnded text text
  | added {text : String} : text.toList.getLast? ≠ some '\n' → IsEnded text (text ++ "\n")

/-- What is returned for texts of one stream: all of them in order, each ended by a line feed, but
for blank characters at the two ends. -/
def Returns (texts : List String) (returned : String) : Prop :=
  ∃ lines, List.Forall₂ IsEnded texts lines ∧ Trims (String.join lines) returned

/-- What is returned of a run on which chunks were collected. -/
structure IsResultOf (chunks : List Chunk) (result : RunResult) : Prop where
  stdout : Returns (textsOn .stdout chunks) result.stdout
  stderr : Returns (textsOn .stderr chunks) result.stderr
  diagnostics : result.diagnostics = []

/-- The steps by which chunks are collected. -/
def pushes (chunks : List Chunk) : List Step := chunks.map fun chunk => .push chunk.1 chunk.2

/-- The steps of runs that were finished one after the other, and of one that was not. -/
def stepsOf (runs : List (List Chunk)) (unfinished : List Chunk) : List Step :=
  runs.flatMap (fun run => pushes run ++ [.finish]) ++ pushes unfinished

/-- The steps that a stream takes part in. -/
def stepsOn (stream : Stream) (steps : List Step) : List Step :=
  steps.filter fun
    | .push other _ => other = stream
    | .finish => true

/-- Steps keep the streams apart, and the runs. -/
structure KeepsApart (steps : List Step) : Prop where
  /-- Every finish returns what was collected since the one before it. -/
  returns : ∃ runs unfinished, steps = stepsOf runs unfinished ∧
    List.Forall₂ IsResultOf runs (results {} steps)
  /-- It does not matter how the streams interleave. -/
  streams : ∀ others, (∀ stream, stepsOn stream others = stepsOn stream steps) →
    results {} others = results {} steps
  /-- What was collected before a finish does not come back after it. -/
  runs : ∀ later, results {} (steps ++ .finish :: later) =
    results {} (steps ++ [.finish]) ++ results {} later

variable {stream other : Stream} {text : String} {chunks : List Chunk} {steps : List Step}
  {output : Aggregator}

/-! ## One stream -/

theorem isEnded_chunkText (text : String) : IsEnded text (chunkText text) := by
  rw [chunkText]
  split
  · exact .already ‹_›
  · rw [String.push_eq_append]
    exact .added ‹_›

theorem on_push (output : Aggregator) (stream other : Stream) (text : String) :
    (output.push other text).on stream =
      if other = stream then output.on stream ++ chunkText text else output.on stream := by
  cases other <;> cases stream <;> rfl

theorem textsOn_cons (stream : Stream) (chunk : Chunk) (chunks : List Chunk) :
    textsOn stream (chunk :: chunks) =
      if chunk.1 = stream then chunk.2 :: textsOn stream chunks else textsOn stream chunks := by
  by_cases own : chunk.1 = stream <;> simp [textsOn, own]

theorem on_foldl_push (output : Aggregator) (stream : Stream) (chunks : List Chunk) :
    (chunks.foldl (fun output chunk => output.push chunk.1 chunk.2) output).on stream =
      output.on stream ++ String.join ((textsOn stream chunks).map chunkText) := by
  induction chunks generalizing output with
  | nil => simp [textsOn]
  | cons chunk chunks ih =>
      rw [List.foldl_cons, ih, on_push, textsOn_cons]
      split
      · rw [List.map_cons, String.join_cons, String.append_assoc]
      · rfl

theorem on_gather (stream : Stream) (chunks : List Chunk) :
    (gather chunks).on stream = String.join ((textsOn stream chunks).map chunkText) := by
  have none : on {} stream = "" := by cases stream <;> rfl
  rw [gather, on_foldl_push, none, String.empty_append]

theorem returns_trim_on (stream : Stream) (chunks : List Chunk) :
    Returns (textsOn stream chunks) (trim ((gather chunks).on stream)) := by
  refine ⟨(textsOn stream chunks).map chunkText, ?_, ?_⟩
  · rw [List.forall₂_map_right_iff, List.forall₂_same]
    exact fun text _ => isEnded_chunkText text
  · rw [on_gather]
    exact trims_trim _

theorem isResultOf_finish (chunks : List Chunk) : IsResultOf chunks (gather chunks).finish :=
  ⟨returns_trim_on .stdout chunks, returns_trim_on .stderr chunks, rfl⟩

/-! ## All runs -/

theorem results_push (output : Aggregator) (stream : Stream) (text : String) (steps : List Step) :
    results output (.push stream text :: steps) = results (output.push stream text) steps := rfl

theorem results_finish (output : Aggregator) (steps : List Step) :
    results output (.finish :: steps) = output.finish :: results {} steps := rfl

/-- What the runs return for one stream, on which some text was collected before. -/
def textsFrom (stream : Stream) : String → List Step → List String
  | _, [] => []
  | text, .push other more :: rest =>
    textsFrom stream (if other = stream then text ++ chunkText more else text) rest
  | text, .finish :: rest => trim text :: textsFrom stream "" rest

/-- The streams are returned independently of each other. -/
theorem results_eq_zipWith (output : Aggregator) (steps : List Step) :
    results output steps = List.zipWith (fun stdout stderr => { stdout, stderr })
      (textsFrom .stdout output.stdout steps) (textsFrom .stderr output.stderr steps) := by
  induction steps generalizing output with
  | nil => rfl
  | cons first rest ih =>
      cases first with
      | push stream text =>
          rw [results_push, ih]
          cases stream <;> rfl
      | finish =>
          rw [results_finish, ih]
          rfl

theorem textsFrom_stepsOn (stream : Stream) (text : String) (steps : List Step) :
    textsFrom stream text (stepsOn stream steps) = textsFrom stream text steps := by
  induction steps generalizing text with
  | nil => rfl
  | cons first rest ih =>
      rw [stepsOn, List.filter_cons]
      cases first with
      | push other more =>
          by_cases own : other = stream
          · simp only [own, decide_true, if_true, textsFrom]
            exact ih _
          · simp only [own, decide_false, Bool.false_eq_true, if_false, textsFrom]
            exact ih _
      | finish =>
          simp only [if_true, textsFrom]
          exact congrArg _ (ih _)

theorem results_append_finish (output : Aggregator) (steps later : List Step) :
    results output (steps ++ .finish :: later) =
      results output (steps ++ [.finish]) ++ results {} later := by
  induction steps generalizing output with
  | nil => rfl
  | cons first rest ih =>
      cases first with
      | push stream text => exact ih _
      | finish => exact congrArg _ (ih _)

/-- Every finish returns what was collected since the one before it, when some chunks of the first
run are already there. -/
theorem exists_runs (chunks : List Chunk) (steps : List Step) :
    ∃ runs unfinished, pushes chunks ++ steps = stepsOf runs unfinished ∧
      List.Forall₂ IsResultOf runs (results (gather chunks) steps) := by
  induction steps generalizing chunks with
  | nil => exact ⟨[], chunks, List.append_nil _, .nil⟩
  | cons first rest ih =>
      cases first with
      | push stream text =>
          obtain ⟨runs, unfinished, same, returned⟩ := ih (chunks ++ [(stream, text)])
          refine ⟨runs, unfinished, ?_, ?_⟩
          · rw [← same, pushes, pushes, List.map_append, List.append_assoc]
            rfl
          · rwa [gather_concat] at returned
      | finish =>
          obtain ⟨runs, unfinished, same, returned⟩ := ih []
          refine ⟨chunks :: runs, unfinished, ?_, .cons (isResultOf_finish chunks) returned⟩
          rw [stepsOf, List.flatMap_cons, List.append_assoc, ← stepsOf, ← same,
            List.append_assoc]
          rfl

/-- Every finish returns, for each stream by itself, what was collected since the one before it. -/
theorem keepsApart (steps : List Step) : KeepsApart steps where
  returns := exists_runs [] steps
  streams := by
    intro others same
    rw [results_eq_zipWith, results_eq_zipWith, ← textsFrom_stepsOn .stdout, same,
      ← textsFrom_stepsOn .stderr, same, textsFrom_stepsOn, textsFrom_stepsOn]
  runs := results_append_finish {} steps

end Aggregator

end Polyglot
