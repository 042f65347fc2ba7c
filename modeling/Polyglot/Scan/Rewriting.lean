import Polyglot.Scan.Call

/-!
# Rewriting of blocking calls

Submitted code reads input with a call that blocks, which an isolated context
cannot do.  Every bare call of that name becomes an awaited call of another
name, and all other text stays as it is written.
-/

namespace Polyglot.Scan

open Text

/-- A stretch of a scanned text. -/
inductive Segment where
  /-- Text that stays as it is. -/
  | kept (bytes : Bytes)
  /-- The name of a bare call with the gap after it; `literal` says whether the
  argument is one string literal. -/
  | call (name : Bytes) (literal : Bool)
  deriving Repr, DecidableEq

namespace Segment

/-- The text of a segment before rewriting. -/
def source : Segment → Bytes
  | kept bytes => bytes
  | call name _ => name

/-- The text of a segment after rewriting. -/
def rewritten (replacement : Bytes) : Segment → Bytes
  | kept bytes => bytes
  | call _ _ => encode "await " ++ replacement

/-- Whether a segment is a call whose argument is one literal. -/
def isLiteralCall : Segment → Bool
  | call _ literal => literal
  | kept _ => false

/-- Whether a segment is a call with any other argument. -/
def isExpressionCall : Segment → Bool
  | call _ literal => !literal
  | kept _ => false

end Segment

/-- Cuts a text, which follows the bytes `before` (last byte first), at its bare
calls of `name`.  Arguments are cut by themselves, as a text of their own,
unless they are one literal.  Where parentheses are not closed the name stays
as it is, and the text after it is still cut. -/
def segments (flavour : Flavour) (name before here : Bytes) : List Segment :=
  match here with
  | [] => []
  | byte :: rest =>
    match _skipped : skip? flavour byte rest with
    | some after =>
      let passed := (byte :: rest).take (rest.length + 1 - after.length)
      .kept passed :: segments flavour name (passed.reverse ++ before) after
    | none =>
      match _called : callSite? flavour name before (byte :: rest) with
      | none => .kept [byte] :: segments flavour name (byte :: before) rest
      | some callee =>
        match closed : arguments? flavour callee.inside with
        | none =>
          let written := byte :: rest.take (name.length - 1)
          .kept written ::
            segments flavour name (written.reverse ++ before) (rest.drop (name.length - 1))
        | some found =>
          let literal := isSingleLiteral flavour found.inside
          let inside :=
            if literal then [.kept found.inside] else segments flavour name [] found.inside
          let passed := (byte :: rest).take (rest.length + 1 - found.after.length)
          .call callee.name literal :: .kept [ascii '('] :: inside ++
            .kept [ascii ')'] :: segments flavour name (passed.reverse ++ before) found.after
termination_by here.length
decreasing_by
  · exact Nat.lt_succ_of_le (length_skip?_le _skipped)
  · simp
  · rw [List.length_drop]
    exact Nat.lt_succ_of_le (Nat.sub_le _ _)
  · exact Nat.lt_of_le_of_lt (length_arguments?_le closed).1 (length_callSite?_le _called)
  · exact Nat.lt_of_le_of_lt (length_arguments?_le closed).2 (length_callSite?_le _called)

/-- A rewritten text. -/
structure Rewriting where
  /-- The text after rewriting. -/
  code : String
  /-- The number of calls whose argument was one string literal. -/
  literalCalls : Nat
  /-- The number of calls with any other argument, also with none. -/
  expressionCalls : Nat
  deriving Repr, DecidableEq

namespace Rewriting

/-- The number of rewritten calls. -/
def total (rewriting : Rewriting) : Nat :=
  rewriting.literalCalls + rewriting.expressionCalls

/-- Whether some call was rewritten. -/
def changed (rewriting : Rewriting) : Bool :=
  0 < rewriting.total

/-- The rewriting that a cut text stands for. -/
def ofSegments (replacement : Bytes) (cut : List Segment) : Rewriting where
  code := decode (cut.flatMap (·.rewritten replacement))
  literalCalls := cut.countP (·.isLiteralCall)
  expressionCalls := cut.countP (·.isExpressionCall)

end Rewriting

/-- Turns every bare call of `name` into an awaited call of `replacement`. -/
def rewriteCalls (flavour : Flavour) (name replacement code : String) : Rewriting :=
  .ofSegments (encode replacement) (segments flavour (encode name) [] (encode code))

end Polyglot.Scan
