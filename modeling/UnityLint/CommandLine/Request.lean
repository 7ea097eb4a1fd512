import UnityLint.Diagnostic.Severity
import UnityLint.Rule.Preset

/-! # Command lines -/

namespace UnityLint

inductive OutputFormat where
  | text
  | json
  | compact
  | rich
deriving DecidableEq, Repr

def OutputFormat.ofName? (name : String) : Option OutputFormat :=
  match name with
  | "text" => some .text
  | "json" => some .json
  | "compact" => some .compact
  | "rich" => some .rich
  | _ => none

def Preset.ofName? (name : String) : Option Preset :=
  match name with
  | "all" => some .all
  | "performance" => some .performance
  | "fail-fast" => some .failFast
  | _ => none

structure CheckOptions where
  path : String := "."
  format : OutputFormat := .text
  excludes : List String := []
  failOn : Option Severity := none
  preset : Preset := .all
deriving DecidableEq, Repr

inductive Request where
  | check (settingsPath : Option String) (options : CheckOptions)
  | listRules
  | init (force : Bool)
  | version
  | help
deriving DecidableEq, Repr

namespace CommandLine

inductive Command where
  | check
  | listRules
  | init
deriving DecidableEq, Repr

def Command.ofName? (name : String) : Option Command :=
  match name with
  | "check" => some .check
  | "list-rules" => some .listRules
  | "init" => some .init
  | _ => none

inductive Switch where
  | verbose
  | settings
  | format
  | exclude
  | failOn
  | preset
  | force
  | help
  | version
deriving DecidableEq, Repr

namespace Switch

def takesValue : Switch → Bool
  | .settings | .format | .exclude | .failOn | .preset => true
  | .verbose | .force | .help | .version => false

def stops : Switch → Bool
  | .help | .version => true
  | _ => false

def known : Option Command → List Switch
  | none => [.verbose, .settings, .help, .version]
  | some .check => [.verbose, .settings, .format, .exclude, .failOn, .preset, .help]
  | some .listRules => [.verbose, .settings, .help]
  | some .init => [.verbose, .settings, .force, .help]

def long : Switch → String
  | .verbose => "verbose"
  | .settings => "config"
  | .format => "format"
  | .exclude => "exclude"
  | .failOn => "fail-on"
  | .preset => "preset"
  | .force => "force"
  | .help => "help"
  | .version => "version"

def short? : Switch → Option Char
  | .verbose => some 'v'
  | .settings => some 'c'
  | .format => some 'f'
  | .exclude => some 'e'
  | .help => some 'h'
  | .version => some 'V'
  | .failOn | .preset | .force => none

end Switch

/-- A switch in a word, with its value if it takes one; the value may be the next word. -/
inductive Use where
  | plain (switch : Switch)
  | valued (switch : Switch) (value : String)
  | awaiting (switch : Switch)
deriving DecidableEq, Repr

def longUse? (command : Option Command) (body : List Char) : Option Use :=
  let (name, value) := match Text.cutFirst '=' body with
    | some (name, value) => (name, some (String.ofList value))
    | none => (body, none)
  match (Switch.known command).find? (·.long.toList = name), value with
  | none, _ => none
  | some switch, some value => if switch.takesValue then some (.valued switch value) else none
  | some switch, none => some (if switch.takesValue then .awaiting switch else .plain switch)

/-- The switches that the letters of a word name after one dash; the rest of the word is the value of the
first one that takes a value. -/
def shortUses? (command : Option Command) : List Char → Option (List Use)
  | [] => some []
  | letter :: rest =>
      match (Switch.known command).find? (·.short? = some letter) with
      | none => none
      | some switch =>
          if switch.takesValue then
            match rest with
            | [] => some [.awaiting switch]
            | '=' :: value => some [.valued switch (String.ofList value)]
            | value => some [.valued switch (String.ofList value)]
          else if switch.stops then
            some [.plain switch]
          else
            (shortUses? command rest).map (.plain switch :: ·)

structure Draft where
  verbose : Bool := false
  settingsPath : Option String := none
  format : Option OutputFormat := none
  excludes : List String := []
  failOn : Option Severity := none
  preset : Option Preset := none
  path : Option String := none
  force : Bool := false

def setOnce {α : Type} (old new : Option α) : Option (Option α) :=
  match old, new with
  | none, some value => some (some value)
  | _, _ => none

def path? (text : String) : Option String :=
  if text = "" then none else some text

namespace Draft

def setValue (draft : Draft) (switch : Switch) (value : String) : Option Draft :=
  match switch with
  | .settings =>
      (setOnce draft.settingsPath (path? value)).map fun settingsPath => { draft with settingsPath }
  | .format =>
      (setOnce draft.format (OutputFormat.ofName? value)).map fun format => { draft with format }
  | .exclude => some { draft with excludes := draft.excludes ++ [value] }
  | .failOn =>
      (setOnce draft.failOn ([Severity.info, .warning, .error].find? (·.name = value))).map
        fun failOn => { draft with failOn }
  | .preset =>
      (setOnce draft.preset (Preset.ofName? value)).map fun preset => { draft with preset }
  | _ => none

def setSwitch (draft : Draft) (switch : Switch) : Option Draft :=
  match switch with
  | .verbose => if draft.verbose then none else some { draft with verbose := true }
  | .force => if draft.force then none else some { draft with force := true }
  | _ => none

/-- Only the check takes a word that is not a switch, and only one. -/
def addWord (draft : Draft) (command : Option Command) (word : String) : Option Draft :=
  match command with
  | some .check => (setOnce draft.path (path? word)).map fun path => { draft with path }
  | _ => none

end Draft

inductive Progress where
  | finished (draft : Draft)
  | command (command : Command) (draft : Draft) (rest : List String)
  | stopped (request : Request)

inductive Step where
  | next (draft : Draft) (awaiting : Option Switch)
  | stopped (request : Request)

def applyUses (draft : Draft) : List Use → Option Step
  | [] => some (.next draft none)
  | .awaiting switch :: _ => some (.next draft (some switch))
  | .valued switch value :: rest => (draft.setValue switch value).bind fun draft => applyUses draft rest
  | .plain .help :: _ => some (.stopped .help)
  | .plain .version :: _ => some (.stopped .version)
  | .plain switch :: rest => (draft.setSwitch switch).bind fun draft => applyUses draft rest

inductive Word where
  | separator
  | long (body : List Char)
  | short (letters : List Char)
  | plain

def Word.ofText (word : String) : Word :=
  match word.toList with
  | ['-', '-'] => .separator
  | '-' :: '-' :: body => .long body
  | ['-'] => .plain
  | '-' :: letters => .short letters
  | _ => .plain

def Word.isPlain : Word → Bool
  | .plain => true
  | _ => false

def uses? (command : Option Command) : Word → Option (List Use)
  | .long body => (longUse? command body).map ([·])
  | .short letters => shortUses? command letters
  | _ => none

/-- Help is given on the program, on a command, and on help itself. -/
def isHelpTopic : List String → Bool
  | [] => true
  | [word] => word = "help" || (Command.ofName? word).isSome
  | _ => false

def readWords (command : Option Command) : Draft → (awaiting : Option Switch) → List String → Option Progress
  | draft, none, [] => some (.finished draft)
  | _, some _, [] => none
  | draft, some switch, word :: rest =>
      if (Word.ofText word).isPlain then
        (draft.setValue switch word).bind fun draft => readWords command draft none rest
      else
        none
  | draft, none, word :: rest =>
      match Word.ofText word with
      | .separator =>
          (rest.foldlM (fun (draft : Draft) word => draft.addWord command word) draft).map .finished
      | .plain =>
          match command, Command.ofName? word with
          | none, some found => some (.command found draft rest)
          | none, none =>
              if word = "help" ∧ isHelpTopic rest then some (.stopped .help) else none
          | some _, _ =>
              (draft.addWord command word).bind fun draft => readWords command draft none rest
      | dashed =>
          match (uses? command dashed).bind (applyUses draft) with
          | none => none
          | some (.stopped request) => some (.stopped request)
          | some (.next draft awaiting) => readWords command draft awaiting rest

/-- The request of a command; a settings path after the command wins over one before it. -/
def Command.request (command : Command) (before after : Draft) : Request :=
  match command with
  | .check =>
      .check (after.settingsPath.or before.settingsPath) {
        path := after.path.getD "."
        format := after.format.getD .text
        excludes := after.excludes
        failOn := after.failOn
        preset := after.preset.getD .all }
  | .listRules => .listRules
  | .init => .init after.force

end CommandLine

open CommandLine in
def Request.parse? (words : List String) : Option Request :=
  match readWords none {} none words with
  | some (.stopped request) => some request
  | some (.command command before rest) =>
      match readWords (some command) {} none rest with
      | some (.finished after) => some (command.request before after)
      | some (.stopped request) => some request
      | _ => none
  | _ => none

end UnityLint
