import LiveQuery.Arguments.Usage

/-!
# Completions

A script for a shell that completes the command line: in each context the commands that lead on and
the names of the items. All scripts are made from one list of candidates.
-/

namespace LiveQuery

open Arguments

namespace Completions

/-- Something that can come next. -/
inductive Candidate where
  | command (name summary : String)
  | item (i : Item) (summary : String)

/-- What can come next in a context. -/
def candidates (c : Context) : List Candidate :=
  c.items.map (fun i => .item i (i.summary c))
    ++ c.menu.map fun e => .command e.1 e.2

/-- The words of a candidate, each with what it is for. -/
def Candidate.words : Candidate → List (String × String)
  | command name summary => [(name, summary)]
  | item i summary => i.names.map fun name => (name, summary)

/-- The values that the item told by its place can have, where they are few. -/
def choices (c : Context) : List String :=
  if c.positional? = some .shell then Shell.all.map Shell.text else []

/-- The words that lead to a context, the program's name in front. -/
def fullPath (c : Context) : List String := programName :: c.path

/-- Every word that can come next in a context. -/
def allWords (c : Context) : List String :=
  ((candidates c).flatMap fun x => x.words.map Prod.fst) ++ choices c

/-- A text between single quotes, in which a quote is doubled. -/
def quoted (s : String) : String := "'" ++ s.replace "'" "''" ++ "'"

/-- Lines with a margin in front of them. -/
def indented (lines : List String) : List String := lines.map ("    " ++ ·)

/-! ## The scripts -/

/-- The words that a context offers, for bash. -/
def bashCase (c : Context) : List String :=
  ["'" ++ " ".intercalate (fullPath c) ++ "')",
    "    opts='" ++ " ".intercalate (allWords c) ++ "'",
    "    ;;"]

/-- The script for bash. -/
def bash : List String :=
  ["_orion() \x7b",
    "    local cur path word opts",
    "    cur=\"$\x7bCOMP_WORDS[COMP_CWORD]\x7d\"",
    "    path='orion'",
    "    for word in \"$\x7bCOMP_WORDS[@]:1:COMP_CWORD-1\x7d\"; do",
    "        case \"$path $word\" in"]
    ++ indented (indented ((Context.all.filter fun c => !c.path.isEmpty).map fun c =>
      "    '" ++ " ".intercalate (fullPath c) ++ "') path=\"$path $word\" ;;"))
    ++ ["        esac", "    done", "    case \"$path\" in"]
    ++ indented (Context.all.flatMap bashCase)
    ++ ["    esac",
      "    COMPREPLY=( $(compgen -W \"$opts\" -- \"$cur\") )",
      "\x7d",
      "complete -F _orion -o bashdefault -o default orion"]

/-- What a context offers, for elvish. -/
def elvishCase (c : Context) : List String :=
  ["&'" ++ ";".intercalate (fullPath c) ++ "'= \x7b"]
    ++ indented ((candidates c).flatMap fun x =>
      x.words.map fun w => "cand " ++ w.1 ++ " " ++ quoted w.2)
    ++ indented ((choices c).map fun w => "cand " ++ w ++ " ''")
    ++ ["\x7d"]

/-- The script for elvish. -/
def elvish : List String :=
  ["use str;",
    "set edit:completion:arg-completer[orion] = \x7b|@words|",
    "    fn cand \x7b|text desc| edit:complex-candidate $text &display=$text' '$desc \x7d",
    "    var command = 'orion'",
    "    for word $words[1..-1] \x7b",
    "        if (str:contains $word '-') \x7b break \x7d",
    "        set command = $command';'$word",
    "    \x7d",
    "    var completions = ["]
    ++ indented (indented (Context.all.flatMap elvishCase))
    ++ ["    ]", "    $completions[$command]", "\x7d"]

/-- When a context is the one to complete in, for fish. -/
def fishCondition (c : Context) : String :=
  match c.path.getLast? with
  | none => "__fish_use_subcommand"
  | some word => "__fish_seen_subcommand_from " ++ word

/-- A candidate, for fish. -/
def fishLine (c : Context) (x : Candidate) : String :=
  let front := "complete -c orion -n \"" ++ fishCondition c ++ "\""
  match x with
  | .command name summary => front ++ " -f -a \"" ++ name ++ "\" -d " ++ quoted summary
  | .item i summary =>
    front ++ ((i.short?.map fun s => " -s " ++ s.toString).getD "")
      ++ ((i.long?.map (" -l " ++ ·)).getD "") ++ " -d " ++ quoted summary
      ++ (if i.takesValue then " -r" else "")

/-- The script for fish. -/
def fish : List String :=
  Context.all.flatMap fun c =>
    (candidates c).map (fishLine c)
      ++ (choices c).map fun w => fishLine c (.command w "")

/-- What a context offers, for PowerShell. -/
def powershellCase (c : Context) : List String :=
  let line (w : String × String) :=
    "[CompletionResult]::new(" ++ ", ".intercalate
      [quoted w.1, quoted w.1, "[CompletionResultType]::ParameterValue", quoted w.2] ++ ")"
  ["'" ++ ";".intercalate (fullPath c) ++ "' \x7b"]
    ++ indented ((candidates c).flatMap fun x => x.words.map line)
    ++ indented ((choices c).map fun w => line (w, w))
    ++ ["    break", "\x7d"]

/-- The script for PowerShell. -/
def powershell : List String :=
  ["using namespace System.Management.Automation",
    "",
    "Register-ArgumentCompleter -Native -CommandName 'orion' -ScriptBlock \x7b",
    "    param($wordToComplete, $commandAst, $cursorPosition)",
    "    $words = $commandAst.CommandElements | ForEach-Object \x7b $_.ToString() \x7d",
    "    $names = $words | Select-Object -Skip 1 | Where-Object \x7b",
    "        -not $_.StartsWith('-') -and $_ -ne $wordToComplete",
    "    \x7d",
    "    $command = (@('orion') + $names) -join ';'",
    "    $completions = @(switch ($command) \x7b"]
    ++ indented (indented (Context.all.flatMap powershellCase))
    ++ ["    \x7d)",
      "    $completions.Where\x7b $_.CompletionText -like \"$wordToComplete*\" \x7d",
      "\x7d"]

/-- What a context offers, for zsh. -/
def zshCase (c : Context) : List String :=
  let entry (w : String × String) := "'" ++ w.1 ++ ":" ++ w.2.replace ":" "\\:" ++ "'"
  ["'" ++ " ".intercalate (fullPath c) ++ "')", "    entries=("]
    ++ indented (indented ((candidates c).flatMap fun x => x.words.map entry))
    ++ indented (indented ((choices c).map fun w => entry (w, w)))
    ++ ["    )", "    ;;"]

/-- The script for zsh. -/
def zsh : List String :=
  ["#compdef orion",
    "",
    "_orion() \x7b",
    "    local place='orion' word",
    "    local -a entries",
    "    for word in \"$\x7b(@)words[2,CURRENT-1]\x7d\"; do",
    "        case \"$place $word\" in"]
    ++ indented (indented ((Context.all.filter fun c => !c.path.isEmpty).map fun c =>
      "    '" ++ " ".intercalate (fullPath c) ++ "') place=\"$place $word\" ;;"))
    ++ ["        esac", "    done", "    case \"$place\" in"]
    ++ indented (Context.all.flatMap zshCase)
    ++ ["    esac", "    _describe 'orion' entries", "\x7d", "", "compdef _orion orion"]

/-- The lines of the script for a shell. -/
def lines : Shell → List String
  | .bash => bash
  | .elvish => elvish
  | .fish => fish
  | .powershell => powershell
  | .zsh => zsh

/-- The script for a shell. -/
def script (shell : Shell) : String := String.join ((lines shell).map (· ++ "\n"))

end Completions
end LiveQuery
