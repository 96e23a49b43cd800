import SpirvInspector.CommandLine.Help

/-!
# Reading a command line

Tokens are read from left to right. Each goes to the first entry that takes it, options before
arguments. The value of an option follows an equals sign or is the next token. Entries count how
often they were given; at the end those that are required must have been.
-/

set_option autoImplicit false

namespace SpirvInspector

namespace CommandLine

variable {ο : Type}

/-- Whether an entry takes a token: with a value, leaving the tokens behind it, or not at all, or
with a complaint. -/
inductive Match
  | absent
  | invalid (complaint : String)
  | value (value : Bytes) (rest : List Bytes)
deriving DecidableEq, Repr

namespace Entry

/-- What follows the name of an option in a token that calls it. -/
def afterName? (entry : Entry ο) (token : Bytes) : Option Bytes :=
  match token with
  | 45 :: 45 :: text => entry.long.bind (Bytes.dropStart? text)
  | 45 :: text => entry.short.bind (Bytes.dropStart? text)
  | _ => none

/-- The value that a token gives to an option. -/
def optionValue (entry : Entry ο) (token : Bytes) (rest : List Bytes) : Match :=
  match entry.afterName? token with
  | none => .absent
  | some [] =>
    if entry.attributes.flag || entry.attributes.flagValue then .value [] rest
    else match rest with
      | [] => .invalid "unexpected end of command line"
      | value :: rest => .value value rest
  | some (61 :: value) =>
    if entry.attributes.flag && !entry.attributes.flagValue then .invalid "option is a flag"
    else .value value rest
  | some _ => .absent

/-- An entry that was given before takes another token only if it may be given many times. An option
complains about that, an argument leaves the token to others. -/
def take (entry : Entry ο) (times : Nat) (token : Bytes) (rest : List Bytes) : Match :=
  let again := decide (0 < times) && !entry.attributes.multiple
  if entry.isArgument then if again then .absent else .value token rest
  else match entry.optionValue token rest with
    | .value value rest => if again then .invalid "respecification" else .value value rest
    | other => other

end Entry

/-- An entry with the number of times it was given. -/
structure Counted (ο : Type) where
  entry : Entry ο
  times : Nat

/-- The first of several entries that takes a token: what is left to read, the entries with the new
count, and the options after its action. -/
inductive Step (ο : Type)
  | unmatched
  | exit (exit : Exit) (options : ο)
  | matched (rest : List Bytes) (entries : List (Counted ο)) (options : ο)

namespace Spec

def invalid (spec : Spec ο) (entry : Entry ο) (token : Bytes) (complaint : String) : Exit :=
  spec.fail
    (token ++ ascii ": invalid " ++ ascii (if entry.isArgument then "argument" else "option") ++
      ascii ": " ++ ascii complaint) entry.usage

/-- Carries out the action of an entry. -/
def act (spec : Spec ο) (entry : Entry ο) (value : Bytes) (options : ο) : Option Exit × ο :=
  match entry.action with
  | .help => (some (spec.help value), options)
  | .set setter =>
    match setter value options with
    | (none, options) => (none, options)
    | (some complaint, options) => (some (spec.fail complaint []), options)

def step (spec : Spec ο) (options : ο) (token : Bytes) (rest : List Bytes) :
    List (Counted ο) → Step ο
  | [] => .unmatched
  | ⟨entry, times⟩ :: others =>
    match entry.take times token rest with
    | .invalid complaint => .exit (spec.invalid entry token complaint) options
    | .value value rest =>
      match spec.act entry value options with
      | (some exit, options) => .exit exit options
      | (none, options) => .matched rest (⟨entry, times + 1⟩ :: others) options
    | .absent =>
      match spec.step options token rest others with
      | .matched rest others options => .matched rest (⟨entry, times⟩ :: others) options
      | other => other

/-- A token that looks like an option: a dash with something behind it. -/
def looksLikeOption : Bytes → Bool
  | 45 :: _ :: _ => true
  | _ => false

/-- The first required entry that was never given. -/
def missing? (entries : List (Counted ο)) : Option (Entry ο) :=
  (entries.find? fun counted => counted.times == 0 && counted.entry.attributes.required).map
    Counted.entry

/-- Ends the reading: every required entry must have been given. -/
def conclude (spec : Spec ο) (options arguments : List (Counted ο)) : Option Exit :=
  match missing? options <|> missing? arguments with
  | some entry => some (spec.fail (entry.title ++ ascii " undefined") entry.usage)
  | none => none

/-- Reads tokens, each step of which takes one at least. The first argument bounds the steps. -/
def readTokens (spec : Spec ο) : Nat → List (Counted ο) → List (Counted ο) → ο → List Bytes →
    Option Exit × ο
  | 0, options, arguments, state, _ => (spec.conclude options arguments, state)
  | _ + 1, options, arguments, state, [] => (spec.conclude options arguments, state)
  | bound + 1, options, arguments, state, token :: rest =>
    match spec.step state token rest options with
    | .exit exit state => (some exit, state)
    | .matched rest options state => spec.readTokens bound options arguments state rest
    | .unmatched =>
      if looksLikeOption token then
        (some (spec.fail (token ++ ascii ": unmatched program option") []), state)
      else match spec.step state token rest arguments with
        | .exit exit state => (some exit, state)
        | .matched rest arguments state => spec.readTokens bound options arguments state rest
        | .unmatched =>
          (some (spec.fail (token ++ ascii ": unmatched program argument") []), state)

/-- Reads a command line into the options of a program. Without any token it shows help. -/
def parse (spec : Spec ο) (state : ο) (tokens : List Bytes) : Option Exit × ο :=
  if tokens.isEmpty then (some (spec.help []), state)
  else
    let counted := List.map fun (entry : Entry ο) => Counted.mk entry 0
    spec.readTokens tokens.length (counted spec.options) (counted spec.arguments) state tokens

end Spec

end CommandLine

end SpirvInspector
