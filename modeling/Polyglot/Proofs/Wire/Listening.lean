import Mathlib.Data.List.TakeWhile
import Polyglot.Proofs.Text.Trimming
import Polyglot.Proofs.Wire.Framing

/-!
# What a child process is heard to say

The output of a child process is heard in portions, and every line of it that is a message is
received once, in order.  Lines that are blank or no message are passed over.  But a line whose
bytes are no text ends the stream, so whatever messages stand behind it are never received.
-/

namespace Polyglot

open Json Shell Text Wire

/-! ## Blank texts -/

namespace Json

/-- No number begins with a blank character. -/
theorem number?_of_isBlank {first : Char} {rest : List Char} (blank : isBlank first = true) :
    number? (first :: rest) = none := by
  have noDigit : isDigit first = false := by
    rw [Bool.eq_false_iff]
    intro isDecimal
    have visible : isBlank first = false := isBlank_of_isDigit isDecimal
    rw [visible] at blank
    contradiction
  have noDigits : digits? (first :: rest) = none := by
    rw [digits?, List.takeWhile_cons_of_neg (by simp [noDigit])]
    rfl
  have noNumber : unsigned? false (first :: rest) = none := by
    rw [unsigned?, whole?, noDigits]
    rfl
  rw [number?.eq_def]
  split
  · rename_i isText
    obtain ⟨rfl, -⟩ := List.cons.inj isText
    contradiction
  · exact noNumber

/-- No value begins with a blank character. -/
theorem readValue?_of_isBlank {characters : List Char} (blank : characters.all isBlank = true)
    (fuel : Nat) : readValue? (fuel + 1) characters = none := by
  have isRest : (skipGap characters).all isBlank = true := by
    rw [List.all_eq_true] at blank ⊢
    exact fun character member => blank character ((List.dropWhile_sublist isGap).subset member)
  rw [readValue?]
  generalize skipGap characters = rest at isRest
  cases rest with
  | nil => rfl
  | cons first rest =>
      rw [List.all_cons, Bool.and_eq_true] at isRest
      have isOther : ∀ other ∈ ['{', '[', '"', 'n', 't', 'f'], first ≠ other := by
        rintro other member rfl
        have visible : ['{', '[', '"', 'n', 't', 'f'].all (!isBlank ·) = true := by decide
        have notBlank := List.all_eq_true.mp visible first member
        rw [isRest.1] at notBlank
        contradiction
      simp only [List.forall_mem_cons, List.not_mem_nil, false_implies, implies_true,
        and_true] at isOther
      obtain ⟨notObject, notArray, notString, notNull, notTrue, notFalse⟩ := isOther
      simp [notObject, notArray, notString, notNull, notTrue, notFalse,
        number?_of_isBlank isRest.1]

end Json

namespace Wire

variable {In : Type} [WireForm In]

/-- A blank text is no value. -/
theorem decode?_of_isBlankText {text : String} (blank : isBlankText text = true) :
    (decode? text : Option In) = none := by
  rw [decode?, Json.parse?, readValue?_of_isBlank blank]
  rfl

end Wire

/-! ## Lines of an output that goes on -/

namespace Shell.Octets

/-- The lines that have ended. -/
def ended (octets : Octets) : List Octets := (octets.foldl readOn ([], [])).1.reverse

/-- The line that has not ended. -/
def begun (octets : Octets) : Octets := (octets.foldl readOn ([], [])).2.reverse

theorem lines_eq_ended (octets : Octets) :
    lines octets = ended octets ++ if (begun octets).isEmpty then [] else [begun octets] := by
  rw [lines_eq, ended, begun]
  cases isBegun : (octets.foldl readOn ([], [])).2 with
  | nil => simp [isBegun]
  | cons last line => simp [isBegun]

/-- The pieces between the line feeds, when some lines were read and one is begun. -/
theorem splitOnAll_readOn (octets : Octets) (before : List Octets) (started : Octets) :
    ∃ piece pieces, splitOnAll (· = '\n') octets = piece :: pieces ∧
      before.reverse ++ (started.reverse ++ piece) :: pieces =
        (octets.foldl readOn (before, started)).1.reverse ++
          [(octets.foldl readOn (before, started)).2.reverse] := by
  induction octets generalizing before started with
  | nil => exact ⟨[], [], rfl, by simp⟩
  | cons character octets ih =>
      rw [splitOnAll, List.foldl_cons, readOn]
      by_cases isFeed : character = '\n'
      · obtain ⟨piece, pieces, isSplit, isRead⟩ := ih (started.reverse :: before) []
        refine ⟨[], piece :: pieces, ?_, ?_⟩
        · rw [if_pos (decide_eq_true isFeed), isSplit]
        · rw [if_pos isFeed, ← isRead]
          simp
      · obtain ⟨piece, pieces, isSplit, isRead⟩ := ih before (character :: started)
        refine ⟨character :: piece, pieces, ?_, ?_⟩
        · rw [if_neg (by simpa using isFeed), isSplit]
        · rw [if_neg isFeed, ← isRead]
          simp

theorem splitOnAll_eq_ended (octets : Octets) :
    splitOnAll (· = '\n') octets = ended octets ++ [begun octets] := by
  obtain ⟨piece, pieces, isSplit, isRead⟩ := splitOnAll_readOn octets [] []
  rw [isSplit]
  exact isRead

/-- A line that has ended stays what it is. -/
theorem ended_append (octets more : Octets) : ended octets <+: ended (octets ++ more) := by
  rw [ended, ended, List.foldl_append]
  generalize octets.foldl readOn ([], []) = read
  induction more generalizing read with
  | nil => exact List.prefix_rfl
  | cons character more ih =>
      refine List.IsPrefix.trans ?_ (ih _)
      rw [readOn]
      split
      · rw [List.reverse_cons]
        exact List.prefix_append _ _
      · exact List.prefix_rfl

theorem begun_of_lineFeed {octets : Octets} (isEnded : octets.getLast? = some '\n') :
    begun octets = [] := by
  obtain ⟨before, rfl⟩ := List.getLast?_eq_some_iff.mp isEnded
  rw [begun, List.foldl_append, List.foldl_cons, List.foldl_nil, readOn, if_pos rfl]
  rfl

theorem begun_ne_nil {octets : Octets} (nonempty : octets ≠ [])
    (notEnded : octets.getLast? ≠ some '\n') : begun octets ≠ [] := by
  obtain ⟨before, last, rfl⟩ := List.eq_nil_or_concat octets |>.resolve_left nonempty
  have notFeed : last ≠ '\n' := by simpa using notEnded
  rw [begun, List.concat_eq_append, List.foldl_append, List.foldl_cons, List.foldl_nil, readOn,
    if_neg notFeed, List.reverse_cons]
  exact List.append_ne_nil_of_right_ne_nil _ (List.cons_ne_nil last [])

end Shell.Octets

namespace Exec

namespace Trace

/-- A process that was seen before it was seen once more: it went on, and took nothing back of
what it had written. -/
structure Precedes (before after : Trace) : Prop where
  waiting : before.ending = .waiting
  out : before.out <+: after.out

/-- The lines of an output: the pieces between its line feeds.  What stands behind the last of
them is a line when the process is over. -/
def lines (trace : Trace) : List Octets :=
  let pieces := splitOnAll (· = '\n') trace.out
  if trace.ending = .waiting then pieces.dropLast else pieces

end Trace

/-- The message that a line is, if it is one. -/
def message? (In : Type) [WireForm In] (line : Octets) : Option In :=
  line.toText? >>= Wire.decode?

/-- Whether the bytes of a line are those of a text. -/
def isText (line : Octets) : Bool := line.toText?.isSome

namespace Child

variable {Out In : Type} [WireForm In]

/-! ## Lines -/

section Lines

variable {before after trace : Trace} {lines more : List Octets} {line : Octets}

theorem linesOf_of_waiting (waiting : trace.ending = .waiting) :
    linesOf trace = trace.out.ended := by
  have isAll := trace.out.lines_eq_ended
  rw [linesOf, waiting]
  by_cases isEnded : trace.out.getLast? = some '\n'
  · rw [Octets.begun_of_lineFeed isEnded] at isAll
    simpa [isEnded] using isAll
  · by_cases nonempty : trace.out = []
    · rw [nonempty]
      rfl
    · have isBegun := Octets.begun_ne_nil nonempty isEnded
      rw [List.isEmpty_eq_false_iff.mpr isBegun, if_neg Bool.false_ne_true] at isAll
      simp [isEnded, isAll]

theorem linesOf_of_over (isOver : trace.ending ≠ .waiting) :
    linesOf trace = trace.out.ended ++
      if trace.out.begun.isEmpty then [] else [trace.out.begun] := by
  rw [← Octets.lines_eq_ended]
  simp [linesOf, isOver]

/-- The lines that were heard before are the first of all. -/
theorem linesOf_prefix (precedes : before.Precedes after) : linesOf before <+: linesOf after := by
  have later : before.out.ended <+: after.out.ended := by
    obtain ⟨more, isOut⟩ := precedes.out
    exact isOut ▸ Octets.ended_append before.out more
  rw [linesOf_of_waiting precedes.waiting]
  by_cases waiting : after.ending = .waiting
  · rwa [linesOf_of_waiting waiting]
  · rw [linesOf_of_over waiting]
    exact later.trans (List.prefix_append _ _)

/-- The lines are those that are heard; an empty one may come last. -/
theorem lines_eq_or (trace : Trace) :
    trace.lines = linesOf trace ∨ trace.lines = linesOf trace ++ [[]] := by
  rw [Trace.lines, Octets.splitOnAll_eq_ended]
  split
  · rename_i waiting
    rw [linesOf_of_waiting waiting, List.dropLast_concat]
    exact .inl rfl
  · rename_i isOver
    rw [linesOf_of_over isOver]
    cases isBegun : trace.out.begun with
    | nil => exact .inr (by simp)
    | cons first rest => exact .inl (by simp)

theorem message?_of_not_isText (noText : isText line = false) :
    (message? In line) = none := by
  rw [isText, Option.isSome_eq_false_iff, Option.isNone_iff_eq_none] at noText
  rw [message?, noText]
  rfl

/-- What is heard of lines: the messages of those before the first that is no text. -/
theorem messages_eq (lines : List Octets) :
    (messages lines : List In × Bool) =
      ((lines.takeWhile isText).filterMap (message? In), lines.all isText) := by
  induction lines with
  | nil => rfl
  | cons line lines ih =>
      rw [messages]
      cases found : line.toText? with
      | none =>
          have noText : isText line = false := by rw [isText, found]; rfl
          simp [noText]
      | some text =>
          have isLine : isText line = true := by rw [isText, found]; rfl
          have isMessage : message? In line = Wire.decode? text := by
            rw [message?, found]
            rfl
          have sought : (if isBlankText text then none else (Wire.decode? text : Option In)) =
              message? In line := by
            rw [isMessage]
            split
            · rename_i blank
              exact (decode?_of_isBlankText blank).symm
            · rfl
          simp only [sought, ih, List.takeWhile_cons_of_pos isLine, List.filterMap_cons,
            List.all_cons, isLine, Bool.true_and]
          cases message? In line <;> rfl

/-- Behind lines that are all texts it is heard what the lines there say; behind any others
nothing is heard any more. -/
theorem messages_append (lines more : List Octets) :
    (messages (lines ++ more) : List In × Bool) =
      if lines.all isText then
        (lines.filterMap (message? In) ++ (messages more).1, (messages more : List In × Bool).2)
      else messages lines := by
  simp only [messages_eq]
  split
  · rename_i areTexts
    have isTaken := List.takeWhile_eq_self_iff.mpr (List.all_eq_true.mp areTexts)
    rw [List.takeWhile_append, isTaken, if_pos rfl, List.filterMap_append, List.all_append,
      areTexts, Bool.true_and]
  · rename_i notAll
    have isShorter : (lines.takeWhile isText).length ≠ lines.length := by
      intro same
      have isWhole := (List.takeWhile_prefix isText).eq_of_length same
      exact notAll (List.all_eq_true.mpr (List.takeWhile_eq_self_iff.mp isWhole))
    rw [List.takeWhile_append, if_neg isShorter, List.all_append, Bool.eq_false_iff.mpr notAll,
      Bool.false_and]

theorem messages_lines (trace : Trace) :
    (messages trace.lines : List In × Bool) = messages (linesOf trace) := by
  rcases lines_eq_or trace with same | longer
  · rw [same]
  · rw [longer, messages_append]
    split
    · rename_i areTexts
      have isTaken := List.takeWhile_eq_self_iff.mpr (List.all_eq_true.mp areTexts)
      have nothing : (messages [[]] : List In × Bool) = ([], true) := rfl
      rw [nothing, List.append_nil, messages_eq, isTaken, areTexts]
    · rfl

end Lines

/-! ## Portions -/

section Portions

/-- Listens to a process once more, if its context is still there. -/
def hear (heard : Child × Link Out In) (trace : Trace) : Child × Link Out In :=
  if heard.2.contextOpen then heard.1.listen trace heard.2 else heard

/-- A process is listened to, in each of its turns, after it was told what is sent to it. -/
theorem turn_eq_hear [WireForm Out] {child : Child} {link : Link Out In}
    {after : Child × Link Out In} (turned : child.turn link = some after)
    (isOpen : link.hostOpen = true) :
    let told := { child with input := child.input ++ link.toContext.flatMap lineOf }
    after = hear (told, { link with toContext := [] }) (told.job.trace told.input false) := by
  rw [turn] at turned
  split at turned
  · contradiction
  · rename_i stays
    rw [isOpen, Bool.not_true, if_neg Bool.false_ne_true] at turned
    split at turned
    · cases turned
      have stillOpen : link.contextOpen = true := by simpa using stays
      exact (if_pos stillOpen).symm
    · contradiction

/-- What has come over a link when a process was listened to, after what had come before. -/
structure Follows (first : List In) (heard : Child × Link Out In) (trace : Trace) : Prop where
  toHost : heard.2.toHost = first ++ (messages (linesOf trace)).1
  contextOpen : heard.2.contextOpen =
    ((messages (linesOf trace) : List In × Bool).2 && decide (trace.ending = .waiting))
  count : heard.2.contextOpen = true → heard.1.heard = (linesOf trace).length

variable {first : List In} {heard : Child × Link Out In} {before after trace : Trace}

/-- Nobody was listened to. -/
theorem follows_nothing {child : Child} {link : Link Out In} (fresh : child.heard = 0)
    (isOpen : link.contextOpen = true) (silent : linesOf trace = [])
    (waiting : trace.ending = .waiting) : Follows link.toHost (child, link) trace where
  toHost := by rw [silent]; simp [messages]
  contextOpen := by rw [silent, waiting]; exact isOpen
  count _ := by rw [silent]; exact fresh

theorem listen_toHost (child : Child) (trace : Trace) (link : Link Out In) :
    (child.listen trace link).2.toHost =
      link.toHost ++ (messages ((linesOf trace).drop child.heard)).1 := by
  rw [listen]
  dsimp only
  split <;> rfl

theorem listen_contextOpen (child : Child) (trace : Trace) (link : Link Out In) :
    (child.listen trace link).2.contextOpen =
      (link.contextOpen &&
        ((messages ((linesOf trace).drop child.heard) : List In × Bool).2 &&
          decide (trace.ending = .waiting))) := by
  rw [listen]
  dsimp only
  split
  · rename_i goesOn
    rw [goesOn, Bool.and_true]
  · rename_i isOver
    rw [Bool.eq_false_iff.mpr isOver, Bool.and_false]
    rfl

/-- Every portion is heard from where the last one ended. -/
theorem Follows.hear (follows : Follows first heard before) (precedes : before.Precedes after) :
    Follows first (hear heard after) after := by
  obtain ⟨more, isLines⟩ := linesOf_prefix precedes
  have isMessages := @messages_append In _ (linesOf before) more
  have isOpening := follows.contextOpen
  rw [isLines] at isMessages
  rw [precedes.waiting, messages_eq, decide_eq_true rfl, Bool.and_true] at isOpening
  rw [Child.hear]
  split
  · rename_i isOpen
    have areTexts : (linesOf before).all isText = true := isOpening.symm.trans isOpen
    have isRest : (linesOf after).drop heard.1.heard = more := by
      rw [follows.count isOpen, ← isLines, List.drop_left]
    have isTaken := List.takeWhile_eq_self_iff.mpr (List.all_eq_true.mp areTexts)
    rw [if_pos areTexts] at isMessages
    refine ⟨?_, ?_, fun _ => rfl⟩
    · rw [listen_toHost, isRest, isMessages, follows.toHost, messages_eq (linesOf before), isTaken,
        List.append_assoc]
    · rw [listen_contextOpen, isRest, isMessages, isOpen, Bool.true_and]
  · rename_i isClosed
    rw [Bool.not_eq_true] at isClosed
    have notAll : (linesOf before).all isText = false := isOpening.symm.trans isClosed
    rw [notAll, if_neg Bool.false_ne_true] at isMessages
    refine ⟨?_, ?_, fun isOpen => ?_⟩
    · rw [isMessages]
      exact follows.toHost
    · rw [isMessages, messages_eq, notAll, isClosed]
      rfl
    · rw [isClosed] at isOpen
      contradiction

/-- However the output comes in portions, what is heard is what is heard of all of it. -/
theorem Follows.hearAll {traces : List Trace} (follows : Follows first heard before)
    (chain : List.IsChain Trace.Precedes (before :: (traces ++ [after]))) :
    Follows first ((traces ++ [after]).foldl Child.hear heard) after := by
  induction traces generalizing heard before with
  | nil =>
      obtain ⟨precedes, -⟩ := List.isChain_cons_cons.mp chain
      exact follows.hear precedes
  | cons trace traces ih =>
      obtain ⟨precedes, later⟩ := List.isChain_cons_cons.mp chain
      exact ih (follows.hear precedes) later

end Portions

/-! ## All messages -/

section Whole

variable {child : Child} {link : Link Out In} {traces : List Trace} {last : Trace}

/-- Everything that a process said was understood. -/
structure HearsAll (link after : Link Out In) (trace : Trace) : Prop where
  /-- Every line that is a message has come, in order, and nothing else. -/
  messages : after.toHost = link.toHost ++ trace.lines.filterMap (message? In)
  /-- The stream goes on as long as the process does. -/
  goesOn : trace.ending = .waiting → after.contextOpen = true

/-- The messages of lines are all heard if none stands behind a line that is no text. -/
theorem filterMap_takeWhile_iff {lines : List Octets} :
    (lines.takeWhile isText).filterMap (message? In) = lines.filterMap (message? In) ↔
      ∀ before bad behind, lines = before ++ bad :: behind → isText bad = false →
        ∀ line ∈ behind, message? In line = none := by
  have isWhole : (lines.takeWhile isText).filterMap (message? In) = lines.filterMap (message? In) ↔
      (lines.dropWhile isText).filterMap (message? In) = [] := by
    conv_lhs =>
      rhs
      rw [← List.takeWhile_append_dropWhile (p := isText) (l := lines), List.filterMap_append]
    exact List.self_eq_append_right
  rw [isWhole, List.filterMap_eq_nil_iff]
  constructor
  · rintro nothing before bad behind rfl noText line member
    apply nothing
    rw [List.dropWhile_append]
    split
    · rw [List.dropWhile_cons_of_neg (by simp [noText])]
      exact List.mem_cons_of_mem _ member
    · exact List.mem_append_right _ (List.mem_cons_of_mem _ member)
  · intro nothing line member
    obtain ⟨bad, behind, isRest⟩ := List.exists_cons_of_ne_nil (List.ne_nil_of_mem member)
    have isLines := List.takeWhile_append_dropWhile (p := isText) (l := lines)
    have noText : isText bad = false := by
      have isHead := List.head?_dropWhile_not isText lines
      rw [isRest] at isHead
      simpa using isHead
    rw [isRest] at member isLines
    rcases List.mem_cons.mp member with rfl | isBehind
    · exact message?_of_not_isText noText
    · exact nothing _ bad behind isLines.symm noText line isBehind

/-- What a child process says is heard, however it comes in portions, as exactly its lines that are
messages, and to the end, unless a line of it is no text: then the process has to be over, and no
message may stand behind that line. -/
theorem hearsAll_iff (fresh : child.heard = 0) (isOpen : link.contextOpen = true)
    (chain : List.IsChain Trace.Precedes (traces ++ [last])) :
    HearsAll link ((traces ++ [last]).foldl hear (child, link)).2 last ↔
      ∀ before bad behind, last.lines = before ++ bad :: behind → isText bad = false →
        last.ending ≠ .waiting ∧ ∀ line ∈ behind, message? In line = none := by
  let silent : Trace := { out := [], err := [], ending := .waiting, tree := [] }
  have fromSilence : List.IsChain Trace.Precedes (silent :: (traces ++ [last])) := by
    generalize traces ++ [last] = portions at chain
    cases portions with
    | nil => exact .singleton silent
    | cons first portions =>
        exact List.isChain_cons_cons.mpr ⟨⟨rfl, List.nil_prefix⟩, chain⟩
  have follows := (@follows_nothing Out In _ silent child link fresh isOpen rfl rfl).hearAll
    fromSilence
  generalize (traces ++ [last]).foldl hear (child, link) = heard at follows
  have toHost := follows.toHost
  have contextOpen := follows.contextOpen
  rw [← messages_lines, messages_eq] at toHost contextOpen
  constructor
  · intro hearsAll before bad behind isLines noText
    constructor
    · intro waiting
      have goesOn := contextOpen.symm.trans (hearsAll.goesOn waiting)
      rw [isLines, List.all_append, List.all_cons, noText] at goesOn
      simp at goesOn
    · have isMessages := List.append_cancel_left (toHost.symm.trans hearsAll.messages)
      exact filterMap_takeWhile_iff.mp isMessages before bad behind isLines noText
  · intro spares
    constructor
    case messages =>
      rw [toHost, filterMap_takeWhile_iff.mpr]
      exact fun before bad behind isLines noText => (spares before bad behind isLines noText).2
    case goesOn =>
      intro waiting
      rw [contextOpen, decide_eq_true waiting, Bool.and_true, List.all_eq_true]
      intro line member
      obtain ⟨before, behind, isLines⟩ := List.append_of_mem member
      rw [← Bool.not_eq_false]
      intro noText
      exact (spares before line behind isLines noText).1 waiting

/-- A message that comes in two portions is heard once, and a word that is none is passed over. -/
theorem hearsAll_portions :
    let job : Job := { name := "", program := "", arguments := [], env := [], site := {} }
    let first : Trace :=
      { out := "Hi\n\x7b\"type\":\"ready\"\x7d\n\x7b\"ty".toList, err := []
        ending := .waiting, tree := [] }
    let last : Trace := { first with out := first.out ++ "pe\":\"done\"\x7d\n".toList }
    ({ job } : Child).heard = 0 ∧ ({} : Link Json WorkerMessage).contextOpen = true ∧
      List.IsChain Trace.Precedes ([first] ++ [last]) ∧
      last.lines.filterMap (message? WorkerMessage) = [.ready, .done] ∧
      HearsAll {} (([first] ++ [last]).foldl hear ({ job }, ({} : Link Json WorkerMessage))).2
        last := by
  intro job first last
  have chain : List.IsChain Trace.Precedes ([first] ++ [last]) :=
    List.isChain_cons_cons.mpr ⟨⟨rfl, List.prefix_append _ _⟩, .singleton last⟩
  have areTexts : last.lines.all isText = true := by decide +kernel
  refine ⟨rfl, rfl, chain, by decide +kernel, (hearsAll_iff rfl rfl chain).mpr ?_⟩
  intro before bad behind isLines noText
  rw [isLines, List.all_append, List.all_cons, noText] at areTexts
  simp at areTexts

/-- A byte that begins no character keeps the message on the next line from being heard. -/
theorem not_hearsAll_of_byte :
    ∃ job heard,
      Exec.launch {}
        ["printf", "\x7b\"type\":\"ready\"\x7d\n\\377\n\x7b\"type\":\"done\"\x7d\n"] [] =
          .ok job ∧
      (job.trace [] false).lines.filterMap (message? WorkerMessage) = [.ready, .done] ∧
      ({ job } : Child).turn ({} : Link Json WorkerMessage) = some heard ∧
      heard.2.toHost = [.ready] ∧ ¬ HearsAll {} heard.2 (job.trace [] false) := by
  refine ⟨_, _, rfl, by decide +kernel, rfl, by decide +kernel, fun hearsAll => ?_⟩
  exact absurd hearsAll.messages (by decide +kernel)

end Whole

end Child

end Exec

end Polyglot
