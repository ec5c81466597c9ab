import ShaderFilter.Log
import ShaderFilter.Pattern.Acceptance
import ShaderFilter.Pattern.Machine
import ShaderFilter.Text.Blank
import ShaderFilter.Text.Column
import ShaderFilter.Text.Fields
import ShaderFilter.Text.Keyword
import ShaderFilter.Text.Terminal

/-!
# Log filters

Which records are shown. A filter is a list of rules separated by commas; a rule is a limit for all parts
of the program, `limit`, or for those whose target starts with a name, `name=limit`. The rule with the
longest name decides. Behind a slash a pattern may follow, which must occur in the message of a record.

What is wrong in a filter is complained about and left out.
-/

namespace ShaderFilter.Log

/-- A limit for the records of some parts of the program. -/
structure Rule where
  /-- The start of the targets; none for all parts. -/
  target : Option String
  /-- The greatest number of a level that is shown. -/
  limit : Nat
  deriving DecidableEq

/-- What is wrong in a filter. -/
inductive Complaint where
  /-- A filter has two slashes or more. -/
  | slashes (filter : String)
  /-- A word is not a limit. -/
  | limit (word : String)
  /-- A rule has two equals signs or more. -/
  | rule (text : String)
  /-- The pattern is refused. -/
  | pattern (text : String) (e : Pattern.PatternError)
  deriving DecidableEq

/-- The line of a complaint. -/
def Complaint.line (c : Complaint) : String :=
  let message := match c with
    | .slashes filter => s!"invalid logging spec '{filter}' (too many '/'s)"
    | .limit word => s!"invalid logging spec '{word}'"
    | .rule text => s!"invalid logging spec '{text}'"
    | .pattern text e => s!"invalid regex filter - {e.message text}"
  s!"warning: {message}, ignoring it\n"

/-- The numbers of the limits by their words. -/
def limits : List (String × Nat) :=
  [("off", 0), ("error", 1), ("warn", 2), ("info", 3), ("debug", 4), ("trace", 5)]

namespace Rule

/-- A text without blanks at its ends. -/
def trimmed (s : List Char) : String := String.ofList (Text.strip Text.isBlank s)

/-- Reads a rule; a name alone shows everything of its targets. -/
def read (s : String) : Except Complaint Rule :=
  match Text.pieces '=' s.toList with
  | [word] =>
    match Text.keyword? limits (String.ofList word) with
    | some limit => .ok ⟨none, limit⟩
    | none => .ok ⟨some (String.ofList word), 5⟩
  | [name, word] =>
    if trimmed word = "" then .ok ⟨some (String.ofList name), 5⟩
    else match Text.keyword? limits (trimmed word) with
      | some limit => .ok ⟨some (String.ofList name), limit⟩
      | none => .error (.limit (trimmed word))
  | _ => .error (.rule s)

/-- Enters a rule into a list, in the place of the one for the same targets. -/
def enter (r : Rule) : List Rule → List Rule
  | [] => [r]
  | q :: qs => if q.target = r.target then r :: qs else q :: enter r qs

/-- The length of the name; a rule for all parts has none. -/
def nameLength (r : Rule) : Nat := (r.target.getD "").length

/-- Whether a rule is for a target. -/
def covers (r : Rule) (target : String) : Bool :=
  r.target.all fun name => name.toList.isPrefixOf target.toList

end Rule

/-- The rules that decide which records are shown, and a pattern that occurs in the messages of all that
are. -/
structure Filter where
  /-- The rules; no two of them are for the same targets. -/
  rules : List Rule
  /-- What searches for the pattern. -/
  pattern : Option Pattern.Machine

namespace Filter

/-- Enters the rule of a text, or notes what is wrong in it. -/
def takeText (complaints : List Complaint) (rules : List Rule) (text : String) :
    List Complaint × List Rule :=
  match Rule.read text with
  | .ok r => (complaints, r.enter rules)
  | .error c => (complaints ++ [c], rules)

/-- The rules of the texts between commas, and what is wrong in them. Without any rule, errors are
shown. -/
def readRules (text : List Char) : List Complaint × List Rule :=
  let texts := ((Text.pieces ',' text).map Rule.trimmed).filter (· ≠ "")
  let (complaints, rules) := texts.foldl (fun taken text => takeText taken.1 taken.2 text) ([], [])
  (complaints, if rules = [] then [⟨none, 1⟩] else rules)

/-- Reads a filter, and gives what is wrong in it. -/
def read (s : String) : List Complaint × Filter :=
  match Text.pieces '/' s.toList with
  | [rules] =>
    let (complaints, rules) := readRules rules
    (complaints, ⟨rules, none⟩)
  | [rules, pattern] =>
    let (complaints, rules) := readRules rules
    let pattern := String.ofList pattern
    match Pattern.read pattern with
    | .ok p => (complaints, ⟨rules, some p.machine⟩)
    | .error e => (complaints ++ [.pattern pattern e], ⟨rules, none⟩)
  | _ => ([.slashes s], ⟨[⟨none, 1⟩], none⟩)

/-- The rule with the longest name that is a start of a target, the last one if there are several. -/
def rule? (f : Filter) (target : String) : Option Rule :=
  f.rules.foldl (fun best r =>
    if r.covers target then
      match best with
      | some b => if r.nameLength < b.nameLength then some b else some r
      | none => some r
    else best) none

/-- Whether a record is shown. -/
def shows (f : Filter) (r : Record) : Bool :=
  match f.rule? r.part.target with
  | some rule => r.level.number ≤ rule.limit && f.pattern.all (·.occursIn r.message)
  | none => false

end Filter

/-- A message with all lines but the first one indented. -/
def indented (message : String) : String :=
  String.ofList <| message.toList.flatMap fun c =>
    if c = '\n' then '\n' :: List.replicate 4 ' ' else [c]

/-- The line of a record. What would control a terminal is left out, be it in the message or started by
it. -/
def Record.line (r : Record) : String :=
  Text.Terminal.strip s!"[{Text.padRight 5 r.level.name} {r.part.target}] {indented r.message}\n"

/-- The lines of the records that are shown. -/
def Filter.lines (f : Filter) (records : List Record) : String :=
  String.join ((records.filter f.shows).map Record.line)

end ShaderFilter.Log
