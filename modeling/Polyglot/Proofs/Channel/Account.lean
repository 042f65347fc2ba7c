import Polyglot.Run.Aggregator

/-!
# Accounts of contexts

A context handles the runs that are submitted to it one after the other, and for each
it emits output and requests for input and then one last message.  An account keeps
who submitted the runs and what was emitted for each.
-/

namespace Polyglot

/-- A piece of output on one of the streams. -/
abbrev Chunk := Stream × String

/-- The output that is collected from chunks. -/
def Aggregator.gather (chunks : List Chunk) : Aggregator :=
  chunks.foldl (fun output chunk => output.push chunk.1 chunk.2) {}

theorem Aggregator.gather_append (chunks more : List Chunk) :
    gather (chunks ++ more) =
      more.foldl (fun output chunk => output.push chunk.1 chunk.2) (gather chunks) :=
  List.foldl_append

theorem Aggregator.gather_concat (chunks : List Chunk) (chunk : Chunk) :
    gather (chunks ++ [chunk]) = (gather chunks).push chunk.1 chunk.2 := by
  rw [gather_append, List.foldl_cons, List.foldl_nil]

/-- What a context can say. -/
inductive Utterance where
  /-- Something that has nothing to do with a run. -/
  | aside
  | output (chunk : Chunk)
  /-- It asks for input. -/
  | request
  /-- The last message of a run, which can carry output. -/
  | ending (last : Option Chunk)
  deriving Repr, DecidableEq

namespace Utterance

/-- The output in what a context says. -/
def chunks : Utterance → List Chunk
  | .output chunk => [chunk]
  | .ending last => last.toList
  | .aside | .request => []

/-- Whether it has nothing to do with a run. -/
def isAside : Utterance → Bool
  | .aside => true
  | .output _ | .request | .ending _ => false

/-- Whether it is the last message of a run. -/
def isEnding : Utterance → Bool
  | .ending _ => true
  | .aside | .output _ | .request => false

end Utterance

/-! ## Accounts -/

/-- What is known of the runs of a context. -/
structure Account where
  /-- The code of every run that was submitted, with who submitted it, oldest first. -/
  posted : List (Nat × String) := []
  /-- How many of them the context has received. -/
  taken : Nat := 0
  /-- How many of them have come to their end. -/
  ended : Nat := 0
  /-- Every chunk that was emitted, with the number of the run that it was emitted for. -/
  emitted : List (Nat × Chunk) := []
  deriving Repr

namespace Account

/-- The output that was emitted for a run. -/
def emittedFor (account : Account) (run : Nat) : List Chunk :=
  (account.emitted.filter fun entry => entry.1 = run).map (·.2)

/-- Somebody submits code. -/
def post (account : Account) (owner : Nat) (codes : List String) : Account :=
  { account with posted := account.posted ++ codes.map (owner, ·) }

/-- The context receives a run. -/
def take (account : Account) : Account := { account with taken := account.taken + 1 }

/-- Whether a context that handles its runs in order can say something: only asides, if
it has no run to handle. -/
def permits (account : Account) (utterance : Utterance) : Bool :=
  utterance.isAside || account.ended < account.taken

/-- The context says something for the run that it handles. -/
def say (account : Account) (utterance : Utterance) : Account :=
  { account with
    emitted := account.emitted ++ utterance.chunks.map (account.ended, ·)
    ended := if utterance.isEnding then account.ended + 1 else account.ended }

/-- A run belongs to somebody, and chunks are the first that were emitted for it. -/
structure Owns (account : Account) (run owner : Nat) (code : String) (heard : List Chunk) :
    Prop where
  posted : account.posted[run]? = some (owner, code)
  inOrder : heard <+: account.emittedFor run

/-- An account of the same context at a later time. -/
structure Extends (before after : Account) : Prop where
  posted : before.posted <+: after.posted
  emitted : before.emitted <+: after.emitted

theorem Extends.refl (account : Account) : account.Extends account :=
  ⟨List.prefix_rfl, List.prefix_rfl⟩

theorem extends_post (account : Account) (owner : Nat) (codes : List String) :
    account.Extends (account.post owner codes) :=
  ⟨List.prefix_append _ _, List.prefix_rfl⟩

theorem extends_take (account : Account) : account.Extends account.take :=
  ⟨List.prefix_rfl, List.prefix_rfl⟩

theorem extends_say (account : Account) (utterance : Utterance) :
    account.Extends (account.say utterance) :=
  ⟨List.prefix_rfl, List.prefix_append _ _⟩

@[simp] theorem post_nil (account : Account) (owner : Nat) : account.post owner [] = account := by
  simp [post]

theorem Extends.emittedFor {before after : Account} (later : before.Extends after)
    (run : Nat) : before.emittedFor run <+: after.emittedFor run :=
  (later.emitted.filter _).map _

/-- What belongs to somebody goes on belonging to them. -/
theorem Owns.mono {before after : Account} {run owner : Nat} {code : String}
    {heard : List Chunk} (owns : before.Owns run owner code heard)
    (later : before.Extends after) : after.Owns run owner code heard where
  posted := by
    obtain ⟨more, appended⟩ := later.posted
    have inside : run < before.posted.length := (List.getElem?_eq_some_iff.mp owns.posted).1
    rw [← appended, List.getElem?_append_left inside, owns.posted]
  inOrder := owns.inOrder.trans (later.emittedFor run)

theorem emittedFor_say (account : Account) (utterance : Utterance) (run : Nat) :
    (account.say utterance).emittedFor run =
      account.emittedFor run ++ if account.ended = run then utterance.chunks else [] := by
  simp only [emittedFor, say, List.filter_append, List.map_append]
  congr 1
  by_cases same : account.ended = run
  · rw [if_pos same, List.filter_eq_self.mpr, List.map_map]
    · exact List.map_id _
    · intro entry member
      obtain ⟨chunk, -, rfl⟩ := List.mem_map.mp member
      simpa using same
  · rw [if_neg same, List.filter_eq_nil_iff.mpr, List.map_nil]
    intro entry member
    obtain ⟨chunk, -, rfl⟩ := List.mem_map.mp member
    simpa using same

/-- An account agrees with how many runs are on their way to the context. -/
structure Balances (account : Account) (queued : Nat) : Prop where
  taken : queued + account.taken ≤ account.posted.length
  ended : account.ended ≤ account.taken
  tags : ∀ entry ∈ account.emitted, entry.1 < account.taken

theorem balances_empty : Balances {} 0 := ⟨Nat.le_refl _, Nat.le_refl _, by simp⟩

theorem Balances.mono {account : Account} {queued fewer : Nat} (balances : account.Balances queued)
    (le : fewer ≤ queued) : account.Balances fewer :=
  { balances with taken := Nat.le_trans (Nat.add_le_add_right le _) balances.taken }

theorem Balances.take {account : Account} {queued fewer : Nat} (balances : account.Balances queued)
    (less : fewer + 1 ≤ queued) : account.take.Balances fewer where
  taken := by
    have bound := balances.taken
    simp only [Account.take]
    omega
  ended := Nat.le_succ_of_le balances.ended
  tags entry member := Nat.lt_succ_of_lt (balances.tags entry member)

theorem Balances.say {account : Account} {queued : Nat} (balances : account.Balances queued)
    (handles : account.ended < account.taken) (utterance : Utterance) :
    (account.say utterance).Balances queued where
  taken := balances.taken
  ended := by
    simp only [Account.say]
    split
    · exact handles
    · exact balances.ended
  tags entry member := by
    rcases List.mem_append.mp member with old | new
    · exact balances.tags entry old
    · obtain ⟨chunk, -, rfl⟩ := List.mem_map.mp new
      exact handles

theorem Balances.post {account : Account} {queued : Nat} (balances : account.Balances queued)
    (owner : Nat) (code : String) : (account.post owner [code]).Balances (queued + 1) where
  taken := by
    have bound := balances.taken
    simp only [Account.post, List.length_append, List.length_map, List.length_singleton]
    omega
  ended := balances.ended
  tags := balances.tags

/-- An aside changes nothing. -/
theorem say_of_isAside {account : Account} {utterance : Utterance}
    (aside : utterance.isAside = true) : account.say utterance = account := by
  cases utterance <;> simp_all [Utterance.isAside, say, Utterance.chunks, Utterance.isEnding]

end Account

/-! ## Submissions -/

/-- Code was submitted to contexts, and their accounts say whose it is. -/
def Posts {Place : Type} (owner : Nat) (before : Place → List String) (accounts : Place → Account)
    (after : Place → List String) (accounts' : Place → Account) : Prop :=
  ∀ place, ∃ codes, after place = before place ++ codes ∧
    accounts' place = (accounts place).post owner codes

section Posts

variable {Place : Type} {owner : Nat} {before middle after : Place → List String}
  {accounts accounts' accounts'' : Place → Account}

theorem posts_nothing (owner : Nat) (accounts : Place → Account)
    (same : ∀ place, after place = before place) : Posts owner before accounts after accounts :=
  fun place => ⟨[], by rw [same, List.append_nil], by rw [Account.post_nil]⟩

theorem Posts.trans (left : Posts owner before accounts middle accounts')
    (right : Posts owner middle accounts' after accounts'') :
    Posts owner before accounts after accounts'' := by
  intro place
  obtain ⟨codes, submitted, posted⟩ := left place
  obtain ⟨more, submittedMore, postedMore⟩ := right place
  refine ⟨codes ++ more, ?_, ?_⟩
  · rw [submittedMore, submitted, List.append_assoc]
  · rw [postedMore, posted]
    simp [Account.post]

/-- Code was submitted to one context. -/
theorem posts_one {before after : Nat → List String} {number : Nat} {codes : List String}
    (submitted : after number = before number ++ codes)
    (others : ∀ other, other ≠ number → after other = before other) (owner : Nat)
    (accounts : Nat → Account) :
    Posts owner before accounts after fun other =>
      if other = number then (accounts number).post owner codes else accounts other := by
  intro other
  by_cases same : other = number
  · subst same
    exact ⟨codes, submitted, if_pos rfl⟩
  · refine ⟨[], (others other same).trans (List.append_nil _).symm, ?_⟩
    rw [Account.post_nil]
    exact if_neg same

end Posts

end Polyglot
