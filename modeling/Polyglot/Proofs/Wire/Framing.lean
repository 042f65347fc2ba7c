import Polyglot.Exec.Child
import Polyglot.Proofs.Json.RoundTrip
import Polyglot.Proofs.Text.Encoding

/-!
# Values on the wire

Whatever is sent is read back: each value of a wire type has a text that is read as it, and that
text is one line, so that a stream of such lines is the messages that were sent, in order.
-/

namespace Polyglot

open Exec Json Shell Text Wire

/-! ## Lines of bytes -/

namespace Shell.Octets

theorem toNat_ofNat_byte (byte : UInt8) : (Char.ofNat byte.toNat).toNat = byte.toNat := by
  have isChar : Nat.isValidChar byte.toNat := .inl (Nat.lt_trans byte.toNat_lt (by decide))
  rw [Char.ofNat, dif_pos isChar]
  rfl

theorem toBytes_ofBytes (bytes : Bytes) : toBytes (ofBytes bytes) = bytes := by
  rw [toBytes, ofBytes, List.map_map]
  conv_rhs => rw [← List.map_id bytes]
  apply List.map_congr_left
  intro byte _
  rw [Function.comp_apply, toNat_ofNat_byte, UInt8.ofNat_toNat]
  rfl

theorem toText?_octets (text : String) : toText? (octets text) = some text := by
  rw [toText?, octets, toBytes_ofBytes, Text.decode?, decode_encode]
  exact if_pos rfl

/-- The line feed is a character of its own among the bytes. -/
theorem lineFeed_not_mem_octets {text : String} (free : '\n' ∉ text.toList) :
    '\n' ∉ octets text := by
  intro member
  rw [octets, ofBytes, encode_eq] at member
  obtain ⟨byte, isByte, same⟩ := List.mem_map.mp member
  obtain ⟨character, isCharacter, inside⟩ := List.mem_flatMap.mp isByte
  have number : byte.toNat = 10 := by
    rw [← toNat_ofNat_byte, same]
    rfl
  rcases utf8EncodeChar_cases character with ⟨only, single, sameNumber, -⟩ | beyond
  · rw [single, List.mem_singleton] at inside
    apply free
    rwa [show '\n' = character from Char.toNat_inj.mp (by rw [← sameNumber, ← inside, number]; rfl)]
  · have large := beyond byte inside
    omega

/-- The lines so far, the last of them first, and the line that is open, its last character
first, after one character more. -/
def readOn : List Octets × Octets → Char → List Octets × Octets
  | (lines, line), character =>
    if character = '\n' then (line.reverse :: lines, []) else (lines, character :: line)

theorem lines_eq (octets : Octets) : lines octets =
    let read := octets.foldl readOn ([], [])
    (if read.2.isEmpty then read.1 else read.2.reverse :: read.1).reverse := rfl

theorem foldl_readOn_line {line : Octets} (free : '\n' ∉ line) (lines : List Octets)
    (started : Octets) : line.foldl readOn (lines, started) = (lines, line.reverse ++ started) := by
  induction line generalizing started with
  | nil => rfl
  | cons character line ih =>
      obtain ⟨notHere, notLater⟩ := List.ne_and_not_mem_of_not_mem_cons free
      rw [List.foldl_cons, readOn, if_neg notHere.symm, ih notLater, List.reverse_cons,
        List.append_assoc, List.singleton_append]

theorem foldl_readOn_unlines {each : List Octets} (free : ∀ line ∈ each, '\n' ∉ line)
    (before : List Octets) :
    (unlines each).foldl readOn (before, []) = (each.reverse ++ before, []) := by
  induction each generalizing before with
  | nil => rfl
  | cons line each ih =>
      obtain ⟨notHere, notLater⟩ := List.forall_mem_cons.mp free
      have ended : readOn (before, line.reverse ++ []) '\n' = (line :: before, []) := by
        rw [readOn, if_pos rfl, List.append_nil, List.reverse_reverse]
      rw [unlines, List.flatMap_cons, List.append_assoc, List.foldl_append,
        foldl_readOn_line notHere, List.singleton_append, List.foldl_cons, ended, ← unlines,
        ih notLater, List.reverse_cons, List.append_assoc, List.singleton_append]

theorem lines_unlines {each : List Octets} (free : ∀ line ∈ each, '\n' ∉ line) :
    lines (unlines each) = each := by
  rw [lines_eq, foldl_readOn_unlines free, List.append_nil]
  exact List.reverse_reverse each

end Shell.Octets

/-! ## Framed types -/

namespace Wire

/-- A text that is read and written again; none when it is no text of a value. -/
def recode? (α : Type) [WireForm α] (text : String) : Option String :=
  (decode? text : Option α).map encode

/-- The wire form of a type keeps every value apart, and every value on a line of its own. -/
structure Framed (α : Type) [WireForm α] : Prop where
  decode_encode (value : α) : decode? (encode value) = some value
  lineFeed_free (value : α) : '\n' ∉ (encode value).toList
  not_blank (value : α) : isBlankText (encode value) = false
  /-- A stream of lines is the messages that they are written for. -/
  stream (values : List α) :
    Child.messages (Octets.lines (values.flatMap Child.lineOf)) = (values, true)
  /-- To read a text and write it again a second time changes nothing. -/
  recode (text : String) : recode? α text >>= recode? α = recode? α text

section Framed

variable {α : Type} [WireForm α]

theorem recode?_recode? (read : ∀ value : α, decode? (encode value) = some value) (text : String) :
    recode? α text >>= recode? α = recode? α text := by
  rw [recode?]
  cases (decode? text : Option α) with
  | none => rfl
  | some value => simp [recode?, read]

theorem isBlankText_encode {value : α} (textual : IsTextual (WireForm.toJson value)) :
    isBlankText (encode value) = false := by
  obtain ⟨first, rest, isText, starts⟩ := textual.starts
  have notBlank : isBlank first = false := by
    rcases starts with isDecimal | member
    · have bounds : '0'.toNat ≤ first.toNat ∧ first.toNat ≤ '9'.toNat := by
        rw [isDigit, Bool.and_eq_true, decide_eq_true_eq, decide_eq_true_eq] at isDecimal
        exact isDecimal
      obtain ⟨low, high⟩ : 48 ≤ first.toNat ∧ first.toNat ≤ 57 := bounds
      simp [isBlank, blankRanges]
      omega
    · have shown : ['-', '"', '[', '{', 'n', 't', 'f'].all (!isBlank ·) = true := by decide
      simpa only [Bool.not_eq_true'] using List.all_eq_true.mp shown first member
  rw [isBlankText, encode, toText, isText, String.toList_ofList, List.all_cons, notBlank,
    Bool.false_and]

theorem lineFeed_not_mem_encode {value : α} (textual : IsTextual (WireForm.toJson value)) :
    '\n' ∉ (encode value).toList := by
  rw [encode, toText, String.toList_ofList]
  intro member
  exact absurd (textual.isShown '\n' member) (by decide)

/-- The messages of lines that are all messages. -/
theorem messages_encode {values : List α}
    (read : ∀ value ∈ values, decode? (encode value) = some value)
    (notBlank : ∀ value ∈ values, isBlankText (encode value) = false) :
    Child.messages (values.map fun value => octets (encode value)) = (values, true) := by
  induction values with
  | nil => rfl
  | cons value values ih =>
      obtain ⟨isRead, areRead⟩ := List.forall_mem_cons.mp read
      obtain ⟨isNotBlank, areNotBlank⟩ := List.forall_mem_cons.mp notBlank
      rw [List.map_cons, Child.messages, Octets.toText?_octets]
      simp only [isNotBlank, Bool.false_eq_true, if_false, isRead, ih areRead areNotBlank]

theorem flatMap_lineOf (values : List α) :
    values.flatMap Child.lineOf =
      Octets.unlines (values.map fun value => octets (encode value)) := by
  rw [Octets.unlines, List.flatMap_map]
  congr
  funext value
  rw [Child.lineOf, octets, encode_append, Octets.ofBytes, List.map_append]
  rfl

/-- A type is framed whose values are read from the JSON values that they are written as. -/
theorem framed (textual : ∀ value : α, IsTextual (WireForm.toJson value))
    (found : ∀ value : α, WireForm.ofJson? (WireForm.toJson value) = some value) : Framed α := by
  have read (value : α) : decode? (encode value) = some value := by
    rw [decode?, encode, parse?_toText (textual value)]
    exact found value
  have notBlank (value : α) := isBlankText_encode (textual value)
  have free (value : α) := lineFeed_not_mem_encode (textual value)
  refine ⟨read, free, notBlank, ?stream, recode?_recode? read⟩
  case stream =>
    intro values
    rw [flatMap_lineOf, Octets.lines_unlines]
    · exact messages_encode (fun value _ => read value) (fun value _ => notBlank value)
    · intro line member
      obtain ⟨value, -, rfl⟩ := List.mem_map.mp member
      exact Octets.lineFeed_not_mem_octets (free value)

end Framed

/-! ## Parts of wire forms -/

section Parts

theorem isTextual_object {members : List (Option String × Json)}
    (each : ∀ member ∈ members, member.1.isSome ∧ IsTextual member.2) :
    IsTextual (.object members) :=
  .object (fun member isMember => (each member isMember).1)
    fun member isMember => (each member isMember).2

/-- A member with a name, in front of others. -/
theorem textual_cons {name : String} {value : Json} {members : List (Option String × Json)}
    (isTextual : IsTextual value)
    (each : ∀ member ∈ members, member.1.isSome ∧ IsTextual member.2) :
    ∀ member ∈ Json.member name value :: members, member.1.isSome ∧ IsTextual member.2 :=
  List.forall_mem_cons.mpr ⟨⟨rfl, isTextual⟩, each⟩

theorem isTextual_message {tag : String} {members : List (Option String × Json)}
    (each : ∀ member ∈ members, member.1.isSome ∧ IsTextual member.2) :
    IsTextual (message tag members) :=
  isTextual_object (textual_cons (.string tag) each)

theorem textual_optional {name : String} {value : Option Json}
    (isTextual : ∀ found ∈ value, IsTextual found) :
    ∀ member ∈ optional name value, member.1.isSome ∧ IsTextual member.2 := by
  cases value with
  | none => exact List.forall_mem_nil _
  | some value => exact textual_cons (isTextual value rfl) (List.forall_mem_nil _)

theorem textual_unlessEmpty {name : String} {elements : List Json}
    (each : ∀ element ∈ elements, IsTextual element) :
    ∀ member ∈ unlessEmpty name elements, member.1.isSome ∧ IsTextual member.2 := by
  rw [unlessEmpty]
  split
  · exact List.forall_mem_nil _
  · exact textual_cons (.array each) (List.forall_mem_nil _)

/-- A record with fields that are always there and fields that may be left out. -/
theorem textual_append {first second : List (Option String × Json)}
    (isFirst : ∀ member ∈ first, member.1.isSome ∧ IsTextual member.2)
    (isSecond : ∀ member ∈ second, member.1.isSome ∧ IsTextual member.2) :
    ∀ member ∈ first ++ second, member.1.isSome ∧ IsTextual member.2 :=
  List.forall_mem_append.mpr ⟨isFirst, isSecond⟩

theorem isTextual_count (value : UInt32) : IsTextual (count value) :=
  .number (JsonNumber.isWritten_ofNat value.toNat)

theorem optionalCount?_count (value : Option UInt32) :
    optionalCount? (value.map count) = some value := by
  cases value with
  | none => rfl
  | some value =>
      have number : (JsonNumber.ofNat value.toNat).toNat? = some value.toNat := by
        rw [JsonNumber.toNat?, JsonNumber.ofNat, JsonNumber.ofDigits_toDigits]
        rfl
      rw [Option.map_some, count, optionalCount?, number, Option.bind_eq_bind, Option.bind_some,
        if_pos value.toNat_lt, UInt32.ofNat_toNat]

theorem mapM_map {α β : Type} {write : α → β} {read : β → Option α} {values : List α}
    (found : ∀ value ∈ values, read (write value) = some value) :
    (values.map write).mapM read = some values := by
  induction values with
  | nil => rfl
  | cons value values ih =>
      obtain ⟨isFound, areFound⟩ := List.forall_mem_cons.mp found
      rw [List.map_cons, List.mapM_cons, isFound, ih areFound]
      rfl

/-- A list that may be left out is read from the member that it is written as. -/
theorem listOrEmpty?_unlessEmpty {α : Type} {write : α → Json} {read : Json → Option α}
    {values : List α} (found : ∀ value ∈ values, read (write value) = some value) :
    listOrEmpty? read (if (values.map write).isEmpty then none
      else some (.array (values.map write))) = some values := by
  cases values with
  | nil => rfl
  | cons value values => exact mapM_map found

end Parts

/-! ## Wire forms -/

section Forms

theorem isTextual_toJson_host (message : HostMessage) : IsTextual (WireForm.toJson message) := by
  cases message <;> exact isTextual_message (textual_cons (.string _) (List.forall_mem_nil _))

theorem isTextual_toJson_sandbox (message : SandboxMessage) :
    IsTextual (WireForm.toJson message) := by
  cases message with
  | executionComplete => exact isTextual_message (List.forall_mem_nil _)
  | _ => exact isTextual_message (textual_cons (.string _) (List.forall_mem_nil _))

theorem isTextual_toJson_worker (message : WorkerMessage) :
    IsTextual (WireForm.toJson message) := by
  cases message with
  | ready | done => exact isTextual_message (List.forall_mem_nil _)
  | _ => exact isTextual_message (textual_cons (.string _) (List.forall_mem_nil _))

theorem isTextual_text {texts : List String} : ∀ text ∈ texts.map Json.string, IsTextual text := by
  intro text member
  obtain ⟨text, -, rfl⟩ := List.mem_map.mp member
  exact .string text

theorem isTextual_toJson_request (request : InterpreterRequest) :
    IsTextual (WireForm.toJson request) := by
  cases request with
  | run code mode packages =>
      apply isTextual_message
      apply textual_append
      · exact textual_cons (.string _) (textual_cons (.string _) (List.forall_mem_nil _))
      · exact textual_unlessEmpty isTextual_text
  | inputResponse value =>
      exact isTextual_message (textual_cons (.string _) (List.forall_mem_nil _))

theorem isTextual_toJson_run (request : RunRequest) : IsTextual (WireForm.toJson request) :=
  isTextual_object (textual_cons (.string _) (textual_cons (.string _) (List.forall_mem_nil _)))

theorem isTextual_toJson_options (options : CompilerOptions) :
    IsTextual (WireForm.toJson options) :=
  isTextual_object (textual_cons (.string _) (textual_cons (.string _)
    (textual_cons (.boolean _) (List.forall_mem_nil _))))

theorem isTextual_toJson_diagnostic (diagnostic : Diagnostic) :
    IsTextual (WireForm.toJson diagnostic) := by
  have isCount (value : Option UInt32) : ∀ found ∈ value.map count, IsTextual found := by
    intro found isFound
    obtain ⟨value, -, rfl⟩ := Option.map_eq_some_iff.mp isFound
    exact isTextual_count value
  apply isTextual_object
  apply textual_cons (.string _)
  exact textual_append (textual_optional (isCount _)) (textual_optional (isCount _))

theorem isTextual_diagnostic {diagnostics : List Diagnostic} :
    ∀ element ∈ diagnostics.map WireForm.toJson, IsTextual element := by
  intro element member
  obtain ⟨diagnostic, -, rfl⟩ := List.mem_map.mp member
  exact isTextual_toJson_diagnostic diagnostic

theorem isTextual_toJson_result (result : RunResult) : IsTextual (WireForm.toJson result) := by
  apply isTextual_object
  apply textual_append
  · exact textual_cons (.string _) (textual_cons (.string _) (List.forall_mem_nil _))
  · exact textual_unlessEmpty isTextual_diagnostic

theorem isTextual_toJson_compilation (compilation : Compilation) :
    IsTextual (WireForm.toJson compilation) := by
  apply isTextual_object
  apply textual_cons (.boolean _)
  apply textual_append
  · apply textual_optional
    intro found isFound
    obtain ⟨code, -, rfl⟩ := Option.map_eq_some_iff.mp isFound
    exact .string code
  · exact textual_unlessEmpty isTextual_diagnostic

/-- A list of texts inside a message is held in memory with it. -/
theorem isSound_texts (texts : List String) :
    isSoundElements (texts.map .string) = true ∧ depthElements (texts.map .string) = 0 := by
  induction texts with
  | nil => exact ⟨rfl, rfl⟩
  | cons text texts ih => exact ⟨ih.1, (Nat.zero_max _).trans ih.2⟩

theorem tagged?_run (code : String) (mode : RunMode) (packages : List String) :
    tagged? (WireForm.toJson (InterpreterRequest.run code mode packages)) =
      some ("run", .object
        ([Json.member "code" (.string code), Json.member "mode" (.string mode.name)] ++
          unlessEmpty "packages" (packages.map .string))) := by
  cases packages with
  | nil => rfl
  | cons package packages =>
      obtain ⟨isSound, flat⟩ := isSound_texts (package :: packages)
      have holdable :
          (WireForm.toJson (InterpreterRequest.run code mode (package :: packages))).isHoldable =
            true := by
        change (isSoundElements ((package :: packages).map .string) && true &&
          decide (max 0 (max 0 (max 0 (max (depthElements ((package :: packages).map .string) + 1)
            0))) + 1 ≤ 127)) = true
        rw [isSound, flat]
        rfl
      change tagged? (.object _) = _
      rw [tagged?]
      exact if_pos holdable

theorem ofJson?_toJson_request (request : InterpreterRequest) :
    WireForm.ofJson? (WireForm.toJson request) = some request := by
  cases request with
  | inputResponse value => rfl
  | run code mode packages =>
      have fields : fields? ["code", "mode", "packages"] (.object
          ([Json.member "code" (.string code), Json.member "mode" (.string mode.name)] ++
            unlessEmpty "packages" (packages.map .string))) =
          some [some (.string code), some (.string mode.name),
            if (packages.map Json.string).isEmpty then none
              else some (.array (packages.map .string))] := by
        cases packages <;> rfl
      have list : listOrEmpty? text? (if (packages.map Json.string).isEmpty then none
          else some (.array (packages.map .string))) = some packages :=
        listOrEmpty?_unlessEmpty fun package _ => rfl
      simp only [WireForm.ofJson?, tagged?_run, Option.bind_eq_bind, Option.bind_some, fields, list]
      cases mode <;> rfl

theorem ofJson?_toJson_diagnostic (diagnostic : Diagnostic) :
    WireForm.ofJson? (WireForm.toJson diagnostic) = some diagnostic := by
  obtain ⟨message, line, column⟩ := diagnostic
  have fields : fields? ["message", "line", "column"] (WireForm.toJson
      (Diagnostic.mk message line column)) =
      some [some (.string message), line.map count, column.map count] := by
    cases line <;> cases column <;> rfl
  simp only [WireForm.ofJson?, fields, Option.bind_eq_bind, Option.bind_some,
    optionalCount?_count]
  rfl

theorem ofJson?_toJson_result (result : RunResult) :
    WireForm.ofJson? (WireForm.toJson result) = some result := by
  obtain ⟨stdout, stderr, diagnostics⟩ := result
  have fields : fields? ["stdout", "stderr", "diagnostics"] (WireForm.toJson
      (RunResult.mk stdout stderr diagnostics)) =
      some [some (.string stdout), some (.string stderr),
        if (diagnostics.map WireForm.toJson).isEmpty then none
          else some (.array (diagnostics.map WireForm.toJson))] := by
    cases diagnostics <;> rfl
  have list := listOrEmpty?_unlessEmpty fun diagnostic (_ : diagnostic ∈ diagnostics) =>
    ofJson?_toJson_diagnostic diagnostic
  simp only [WireForm.ofJson?, fields, Option.bind_eq_bind, Option.bind_some] at list ⊢
  simp only [list]
  rfl

theorem ofJson?_toJson_compilation (compilation : Compilation) :
    WireForm.ofJson? (WireForm.toJson compilation) = some compilation := by
  obtain ⟨success, code, errors⟩ := compilation
  have fields : fields? ["success", "code", "errors"] (WireForm.toJson
      (Compilation.mk success code errors)) =
      some [some (.boolean success), code.map .string,
        if (errors.map WireForm.toJson).isEmpty then none
          else some (.array (errors.map WireForm.toJson))] := by
    cases code <;> cases errors <;> rfl
  have list := listOrEmpty?_unlessEmpty fun error (_ : error ∈ errors) =>
    ofJson?_toJson_diagnostic error
  have optional : optionalText? (code.map .string) = some code := by cases code <;> rfl
  simp only [WireForm.ofJson?, fields, Option.bind_eq_bind, Option.bind_some, optional] at list ⊢
  simp only [list]
  rfl

/-- Messages, requests, results and options are read back from the lines that they are written
as. -/
theorem framed_all : Framed HostMessage ∧ Framed SandboxMessage ∧ Framed InterpreterRequest ∧
    Framed WorkerMessage ∧ Framed RunRequest ∧ Framed RunResult ∧ Framed Diagnostic ∧
    Framed Compilation ∧ Framed CompilerOptions := by
  refine ⟨framed isTextual_toJson_host ?host, framed isTextual_toJson_sandbox ?sandbox,
    framed isTextual_toJson_request ofJson?_toJson_request,
    framed isTextual_toJson_worker ?worker, framed isTextual_toJson_run fun _ => rfl,
    framed isTextual_toJson_result ofJson?_toJson_result,
    framed isTextual_toJson_diagnostic ofJson?_toJson_diagnostic,
    framed isTextual_toJson_compilation ofJson?_toJson_compilation,
    framed isTextual_toJson_options fun _ => rfl⟩
  all_goals
    intro message
    cases message <;> rfl

end Forms

end Wire

end Polyglot
