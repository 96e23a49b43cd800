import Mathlib.Data.List.Nodup
import SpirvInspector.Proofs.CommandLine.Spellings
import SpirvInspector.Proofs.Tool.CommandLines

/-!
# Command lines in groups

A command line of the inspector is made of groups: an option with its value, or a file. A group is
read in one turn, whatever follows it. So a command line is accepted if no option is given twice,
every value can be read and there is a file.
-/

set_option autoImplicit false

namespace SpirvInspector

namespace Tool

open CommandLine (Counted Entry Invocation Record Spec Spelling Standing)

/-- What a group of tokens gives to the inspector. -/
inductive Kind
  | dump
  | limit
  | stats
  | quiet
  | verbosity
  | file
deriving DecidableEq, Repr

namespace Kind

def entry : Kind → Entry Options
  | .dump => dumpOption
  | .limit => limitOption
  | .stats => statsOption
  | .quiet => quietOption
  | .verbosity => verbosityOption
  | .file => fileArgument

def ofOptions : List Kind := [.dump, .limit, .stats, .quiet, .verbosity]

theorem options_spec : spec.options = Spec.helpEntry :: ofOptions.map entry := rfl

theorem mem_ofOptions {kind : Kind} (isOption : kind ≠ .file) : kind ∈ ofOptions := by
  revert isOption
  cases kind <;> decide

end Kind

/-- An option without a value is called by either name. -/
inductive Naming
  | short
  | long
deriving DecidableEq, Repr

namespace Naming

def caller (short long : Bytes) : Naming → Bytes
  | .short => 45 :: short
  | .long => 45 :: 45 :: long

end Naming

/-- A value for the verbosity whose threshold is an integer of 32 bits too. -/
abbrev Level := { value : Bytes // Text.integer? value ≠ some (-2147483648) }

/-- A file name: it does not start with a dash, or is a dash alone. -/
abbrev FileName := { name : Bytes // Spec.looksLikeOption name = false }

/-- The tokens of one option or of one file. -/
inductive Group
  | dump (naming : Naming)
  | limit (spelling : Spelling) (value : Bytes)
  | stats (naming : Naming)
  | quiet (naming : Naming)
  | verbosity (naming : Naming) (value : Option Level)
  | file (name : FileName)
deriving DecidableEq

namespace Group

def kind : Group → Kind
  | .dump _ => .dump
  | .limit _ _ => .limit
  | .stats _ => .stats
  | .quiet _ => .quiet
  | .verbosity _ _ => .verbosity
  | .file _ => .file

/-- The token that starts a group. -/
def caller : Group → Bytes
  | .dump naming => naming.caller (ascii "d") (ascii "dump")
  | .limit spelling value => spelling.caller (ascii "n") (ascii "max-instructions") value
  | .stats naming => naming.caller (ascii "s") (ascii "stats")
  | .quiet naming => naming.caller (ascii "q") (ascii "quiet")
  | .verbosity naming none => naming.caller (ascii "v") (ascii "verbosity")
  | .verbosity naming (some value) =>
    naming.caller (ascii "v") (ascii "verbosity") ++ 61 :: value.val
  | .file name => name.val

/-- The token behind it, which only the value of a limit may be. -/
def next : Group → List Bytes
  | .limit spelling value => spelling.next value
  | _ => []

/-- The value that an action is given. -/
def value : Group → Bytes
  | .limit _ value => value
  | .verbosity _ (some value) => value.val
  | .file name => name.val
  | _ => []

def tokens (group : Group) : List Bytes :=
  group.caller :: group.next

def call (group : Group) : Invocation Options :=
  ⟨group.kind.entry, group.tokens, group.value⟩

/-- The tokens of a list of groups. -/
def line (groups : List Group) : List Bytes :=
  groups.flatMap tokens

theorem line_cons (group : Group) (groups : List Group) :
    line (group :: groups) = group.caller :: (group.next ++ line groups) := rfl

theorem optionValue_eq {group : Group} (isOption : group.kind ≠ .file) (back : List Bytes) :
    group.kind.entry.optionValue group.caller (group.next ++ back) = .value group.value back := by
  cases group with
  | dump naming => cases naming <;> rfl
  | limit spelling value =>
    exact spelling.optionValue_eq rfl rfl (by decide) (by decide) ⟨rfl, rfl⟩ value back
  | stats naming => cases naming <;> rfl
  | quiet naming => cases naming <;> rfl
  | verbosity naming value => cases naming <;> cases value <;> rfl
  | file name => exact (isOption rfl).elim

end Group

/-- Where reading stands when groups of these kinds were read. -/
def standing (given : List Kind) (options : Options) : Standing Options where
  options := ⟨Spec.helpEntry, 0⟩ :: Kind.ofOptions.map fun kind => ⟨kind.entry, given.count kind⟩
  arguments := [⟨fileArgument, given.count .file⟩]
  state := options

theorem wellNamed_spec : spec.WellNamed := ⟨by decide, by decide, by decide, by decide⟩

theorem entries_standing (given : List Kind) (options : Options) :
    (standing given options).options.map Counted.entry = spec.options := by
  simp only [standing, Kind.options_spec, List.map_cons, List.map_map, Function.comp_def]

/-- An option that was read is counted in its place. -/
theorem exists_place {kind : Kind} (isOption : kind ≠ .file) (given : List Kind)
    (options : Options) :
    ∃ before later,
      (standing given options).options = before ++ ⟨kind.entry, given.count kind⟩ :: later ∧
        standing (kind :: given) options =
          ⟨before ++ ⟨kind.entry, given.count kind + 1⟩ :: later,
            (standing given options).arguments, options⟩ := by
  have once : Kind.ofOptions.Nodup := by decide
  -- Each kind is listed once, so the entries before and behind this one keep their counts.
  obtain ⟨before, later, split⟩ := List.append_of_mem (Kind.mem_ofOptions isOption)
  rw [split, List.nodup_middle, List.nodup_cons, List.mem_append, not_or] at once
  have same (others : List Kind) (isOther : kind ∉ others) :
      (others.map fun other => (⟨other.entry, (kind :: given).count other⟩ : Counted Options)) =
        others.map fun other => ⟨other.entry, given.count other⟩ := by
    apply List.map_congr_left
    intro other isMember
    have different : kind ≠ other := by
      rintro rfl
      exact isOther isMember
    rw [List.count_cons_of_ne different]
  refine ⟨⟨Spec.helpEntry, 0⟩ :: before.map fun other => ⟨other.entry, given.count other⟩,
    later.map fun other => ⟨other.entry, given.count other⟩, ?_, ?_⟩
  · simp only [standing, split, List.map_append, List.map_cons, List.cons_append]
  · simp only [standing, split, List.map_append, List.map_cons, List.cons_append,
      same before once.1.1, same later once.1.2, List.count_cons_self,
      List.count_cons_of_ne isOption]

/-- A group is read in one turn, unless it is an option that was given before. -/
theorem route_group (group : Group) (given : List Kind) (options : Options) (back : List Bytes) :
    spec.route (standing given options) group.caller (group.next ++ back) =
      if group.kind ≠ .file ∧ group.kind ∈ given then
        .rejected (spec.invalid group.kind.entry group.caller "respecification")
      else .call group.kind.entry group.value back (standing (group.kind :: given) options) := by
  by_cases isFile : group.kind = .file
  · cases group with
    | file name =>
      have isOption : ∀ counted ∈ (standing given options).options,
          counted.entry.isArgument = false ∧ counted.entry.short ≠ some [] := by
        intro counted isCounted
        apply named_options
        rw [← entries_standing given options]
        exact List.mem_map_of_mem isCounted
      have unmet : spec.meet name.val back (standing given options).options = none :=
        Spec.meet_of_plain name.property isOption back
      have met := meet_fileArgument name.val back (given.count .file)
      have counted : standing (.file :: given) options =
          { standing given options with arguments := [⟨fileArgument, given.count .file + 1⟩] } := by
        simp [standing, Kind.ofOptions]
      rw [if_neg (by simp [Group.kind]), Group.kind, counted, Spec.route]
      simp only [Group.caller, Group.next, List.nil_append, unmet, name.property]
      simp only [standing, met, Bool.false_eq_true, if_false]
      rfl
    | _ => cases isFile
  · obtain ⟨before, later, place, next⟩ := exists_place isFile given options
    rw [Spec.route_given wellNamed_spec (entries_standing given options) place
      (Group.optionValue_eq isFile back), next]
    have single : group.kind.entry.attributes.multiple = false := by
      cases group <;> first | rfl | exact (isFile rfl).elim
    simp only [single, ne_eq, isFile, not_false_eq_true, true_and, List.count_pos_iff,
      Bool.not_false, Bool.and_true, decide_eq_true_eq]
    rfl

/-- The limit that a value stands for. -/
def Options.limitOf? (value : Bytes) : Option Nat :=
  (Text.integer? value).bind fun n => if n < 0 then none else some n.toNat

/-- The verbosity that a value stands for. -/
def Options.verbosityOf? (value : Bytes) : Option Int :=
  if value.isEmpty then some 1 else Text.integer? value

theorem Options.setLimit_eq (value : Bytes) (options : Options) :
    setLimit value options =
      match limitOf? value with
      | some limit => (none, { options with limit })
      | none => (some (ascii "-n: malformed instruction count"), options) := by
  unfold setLimit limitOf?
  cases Text.integer? value with
  | none => rfl
  | some n => by_cases negative : n < 0 <;> simp [negative]

theorem Options.setVerbosity_eq (value : Bytes) (options : Options) :
    setVerbosity value options =
      match verbosityOf? value with
      | some verbosity => (none, { options with verbosity, threshold := -verbosity })
      | none => (some (ascii "malformed verbosity value"), options) := rfl

namespace Group

def name? : Group → Option Bytes
  | .file name => some name.val
  | _ => none

def limit? : Group → Option Nat
  | .limit _ value => Options.limitOf? value
  | _ => none

/-- The verbosity and the threshold of the log that a group sets. -/
def levels? : Group → Option (Int × Int)
  | .quiet _ => some (-1, 2)
  | .verbosity naming value =>
    (Options.verbosityOf? (Group.verbosity naming value).value).map fun level => (level, -level)
  | _ => none

/-- Whether the value of a group can be read. -/
def isValid (group : Group) : Bool :=
  match group.kind with
  | .limit => group.limit?.isSome
  | .verbosity => group.levels?.isSome
  | _ => true

/-- The options behind a group. -/
def apply (options : Options) (group : Group) : Options where
  files := options.files ++ group.name?.toArray
  dump := options.dump || group.kind = .dump
  limit := group.limit?.getD options.limit
  stats := options.stats || group.kind = .stats
  verbosity := (group.levels?.getD (options.verbosity, options.threshold)).1
  threshold := (group.levels?.getD (options.verbosity, options.threshold)).2

theorem act_of_valid {group : Group} (isValid : group.isValid = true) (options : Options) :
    spec.act group.kind.entry group.value options = (none, group.apply options) := by
  cases group with
  | dump naming =>
    have applied : (dump naming).apply options = { options with dump := true } := by
      simp [apply, kind, name?, limit?, levels?]
    rw [applied]
    rfl
  | limit spelling value =>
    obtain ⟨limit, isLimit⟩ := Option.isSome_iff_exists.mp isValid
    have applied : (Group.limit spelling value).apply options = { options with limit } := by
      simp [apply, kind, name?, isLimit, levels?]
    have isRead : Options.limitOf? value = some limit := isLimit
    have isSetter : Kind.limit.entry.action = .set Options.setLimit := rfl
    rw [applied, kind, Spec.act_set isSetter, Group.value, Options.setLimit_eq, isRead]
    rfl
  | stats naming =>
    have applied : (stats naming).apply options = { options with stats := true } := by
      simp [apply, kind, name?, limit?, levels?]
    rw [applied]
    rfl
  | quiet naming =>
    have applied : (quiet naming).apply options =
        { options with verbosity := -1, threshold := 2 } := by
      simp [apply, kind, name?, limit?, levels?]
    rw [applied]
    rfl
  | verbosity naming value =>
    obtain ⟨levels, areLevels⟩ := Option.isSome_iff_exists.mp isValid
    obtain ⟨level, isRead, rfl⟩ := Option.map_eq_some_iff.mp areLevels
    have applied : (Group.verbosity naming value).apply options =
        { options with verbosity := level, threshold := -level } := by
      simp [apply, kind, name?, limit?, areLevels]
    have isSetter : Kind.verbosity.entry.action = .set Options.setVerbosity := rfl
    rw [applied, kind, Spec.act_set isSetter, Options.setVerbosity_eq, isRead]
    rfl
  | file name =>
    have applied : (file name).apply options =
        { options with files := options.files.push name.val } := by
      simp [apply, kind, name?, limit?, levels?]
    rw [applied]
    rfl

theorem act_of_invalid {group : Group} (isInvalid : group.isValid = false) (options : Options) :
    ∃ exit, spec.act group.kind.entry group.value options = (some exit, options) := by
  cases group with
  | limit spelling value =>
    have unread : Options.limitOf? value = none := by
      simpa [isValid, kind, limit?] using isInvalid
    have isSetter : Kind.limit.entry.action = .set Options.setLimit := rfl
    rw [kind, Spec.act_set isSetter, Group.value, Options.setLimit_eq, unread]
    exact ⟨_, rfl⟩
  | verbosity naming value =>
    have unread : Options.verbosityOf? (verbosity naming value).value = none := by
      simpa [isValid, kind, levels?] using isInvalid
    have isSetter : Kind.verbosity.entry.action = .set Options.setVerbosity := rfl
    rw [kind, Spec.act_set isSetter, Options.setVerbosity_eq, unread]
    exact ⟨_, rfl⟩
  | _ => cases isInvalid

end Group

/-- Groups that can be read behind others of the given kinds: no option comes twice, each value can
be read, and there is a file. -/
structure Fits (given : List Kind) (groups : List Group) : Prop where
  once : ((given ++ groups.map Group.kind).filter (· ≠ .file)).Nodup
  valid : ∀ group ∈ groups, group.isValid = true
  filed : Kind.file ∈ given ++ groups.map Group.kind

namespace Fits

variable {given : List Kind} {group : Group} {groups : List Group}

theorem nil_iff : Fits given [] ↔ (given.filter (· ≠ .file)).Nodup ∧ .file ∈ given := by
  constructor
  · rintro ⟨once, -, filed⟩
    simpa using And.intro once filed
  · rintro ⟨once, filed⟩
    exact ⟨by simpa using once, by simp, by simpa using filed⟩

theorem cons_iff :
    Fits given (group :: groups) ↔
      group.isValid = true ∧ Fits (group.kind :: given) groups := by
  have moved : (given ++ (group :: groups).map Group.kind).Perm
      (group.kind :: given ++ groups.map Group.kind) := List.perm_middle
  constructor
  · rintro ⟨once, valid, filed⟩
    exact ⟨valid group List.mem_cons_self, (moved.filter _).nodup_iff.mp once,
      fun other isOther => valid other (List.mem_cons_of_mem _ isOther), moved.mem_iff.mp filed⟩
  · rintro ⟨isValid, once, valid, filed⟩
    exact ⟨(moved.filter _).nodup_iff.mpr once, List.forall_mem_cons.mpr ⟨isValid, valid⟩,
      moved.mem_iff.mpr filed⟩

theorem not_again (fits : Fits given (group :: groups)) :
    ¬(group.kind ≠ .file ∧ group.kind ∈ given) := by
  rintro ⟨isOption, isGiven⟩
  have once := (cons_iff.mp fits).2.once
  simp [isOption, isGiven] at once

end Fits

/-- No option has to be given, but a file has. -/
theorem conclude_standing (given : List Kind) (options : Options) :
    spec.conclude (standing given options).options (standing given options).arguments = none ↔
      .file ∈ given := by
  have optional : ∀ entry ∈ spec.options, entry.attributes.required = false := by decide
  have complete : Spec.missing? (standing given options).options = none := by
    rw [Spec.missing?, Option.map_eq_none_iff, List.find?_eq_none]
    intro counted isCounted
    have isListed : counted.entry ∈ spec.options := by
      rw [← entries_standing given options]
      exact List.mem_map_of_mem isCounted
    simp [optional counted.entry isListed]
  rw [standing, conclude_eq_none_iff]
  simp only [standing] at complete
  simp only [complete, true_and, ne_eq, List.count_eq_zero, Decidable.not_not]

/-- All groups are read, if they fit; and otherwise reading ends with an error. -/
theorem record_groups {given : List Kind} (once : (given.filter (· ≠ .file)).Nodup)
    (groups : List Group) (options : Options) {bound : Nat}
    (enough : (Group.line groups).length ≤ bound) :
    Fits given groups ∧ spec.record bound (standing given options) (Group.line groups) =
        ⟨groups.map Group.call, none, groups.foldl Group.apply options⟩ ∨
      ¬Fits given groups ∧
        (spec.record bound (standing given options) (Group.line groups)).exit ≠ none := by
  -- Of the groups that were read only the kinds are kept, since a turn looks at nothing else.
  induction groups generalizing given options bound with
  | nil =>
    have concluded := conclude_standing given options
    rw [show Group.line [] = [] from rfl, Spec.record_nil, Fits.nil_iff]
    by_cases filed : Kind.file ∈ given
    · left
      rw [concluded.mpr filed]
      exact ⟨⟨once, filed⟩, rfl⟩
    · right
      exact ⟨fun fits => filed fits.2, fun accepted => filed (concluded.mp accepted)⟩
  | cons group groups inductionHypothesis =>
    rw [Group.line_cons] at enough ⊢
    cases bound with
    | zero => cases enough
    | succ bound =>
      have routed := route_group group given options (Group.line groups)
      by_cases again : group.kind ≠ .file ∧ group.kind ∈ given
      · rw [if_pos again] at routed
        rw [Spec.record_of_rejected routed]
        exact .inr ⟨fun fits => fits.not_again again, nofun⟩
      · rw [if_neg again] at routed
        have onceMore : ((group.kind :: given).filter (· ≠ .file)).Nodup := by
          by_cases isFile : group.kind = .file
          · simpa [isFile] using once
          · have isNew : group.kind ∉ given := fun isGiven => again ⟨isFile, isGiven⟩
            simpa [isFile, isNew] using once
        rw [List.length_cons, List.length_append] at enough
        have left : (Group.line groups).length ≤ bound := by omega
        rw [Spec.record_of_call routed, Fits.cons_iff]
        cases isValid : group.isValid with
        | false =>
          obtain ⟨exit, acted⟩ := Group.act_of_invalid isValid options
          right
          simp [standing, acted]
        | true =>
          have acted := Group.act_of_valid isValid options
          rcases inductionHypothesis onceMore (group.apply options) left
            with ⟨fits, recorded⟩ | ⟨misfits, failed⟩
          · left
            refine ⟨⟨rfl, fits⟩, ?_⟩
            simp only [standing, acted]
            exact congrArg (Record.behind [group.call]) recorded
          · right
            refine ⟨fun fits => misfits fits.2, ?_⟩
            simp only [standing, acted]
            exact failed

namespace Group

variable {α : Type}

/-- The last of the values that some groups have. -/
def last? (view : Group → Option α) (groups : List Group) : Option α :=
  (groups.filterMap view).getLast?

theorem last?_cons (view : Group → Option α) (group : Group) (groups : List Group) (default : α) :
    (last? view (group :: groups)).getD default =
      (last? view groups).getD ((view group).getD default) := by
  unfold last?
  cases seen : view group with
  | none => rw [List.filterMap_cons_none seen, Option.getD_none]
  | some value => rw [List.filterMap_cons_some seen, List.getLast?_cons]; rfl

/-- The options behind groups: the files in their order, and the last value of each kind. -/
def outcome (options : Options) (groups : List Group) : Options where
  files := options.files ++ (groups.filterMap name?).toArray
  dump := options.dump || groups.any (·.kind = .dump)
  limit := (last? limit? groups).getD options.limit
  stats := options.stats || groups.any (·.kind = .stats)
  verbosity := ((last? levels? groups).getD (options.verbosity, options.threshold)).1
  threshold := ((last? levels? groups).getD (options.verbosity, options.threshold)).2

theorem foldl_apply (groups : List Group) (options : Options) :
    groups.foldl apply options = outcome options groups := by
  induction groups generalizing options with
  | nil => simp [outcome, last?]
  | cons group groups inductionHypothesis =>
    rw [List.foldl_cons, inductionHypothesis]
    unfold outcome
    simp only [last?_cons, List.any_cons]
    cases named : group.name? with
    | none => simp [apply, named, Bool.or_assoc]
    | some name => simp [apply, named, Bool.or_assoc]

end Group

theorem recordAll_groups (groups : List Group) :
    Fits [] groups ∧ spec.recordAll {} (Group.line groups) =
        ⟨groups.map Group.call, none, Group.outcome {} groups⟩ ∨
      ¬Fits [] groups ∧ (spec.recordAll {} (Group.line groups)).exit ≠ none := by
  cases groups with
  | nil =>
    right
    refine ⟨fun fits => ?_, nofun⟩
    cases (Fits.nil_iff.mp fits).2
  | cons group later =>
    have started : spec.recordAll {} (Group.line (group :: later)) =
        spec.record (Group.line (group :: later)).length (standing [] {})
          (Group.line (group :: later)) := rfl
    rw [started, ← Group.foldl_apply]
    exact @record_groups [] List.nodup_nil (group :: later) {} _ (Nat.le_refl _)

/-- Exactly the groups that fit are accepted, with the options that they set. -/
theorem parse_groups (groups : List Group) (options : Options) :
    spec.parse {} (Group.line groups) = (none, options) ↔
      Fits [] groups ∧ Group.outcome {} groups = options := by
  rw [Spec.parse_eq_recordAll]
  rcases recordAll_groups groups with ⟨fits, recorded⟩ | ⟨misfits, failed⟩
  · simp [recorded, fits]
  · simp [misfits, failed]

end Tool

end SpirvInspector
