import SpirvInspector.Proofs.Tool.Groups

/-!
# The order of options

The options that a command line sets are told by its groups apart from their order, but for the
files, which are kept in order, and for the last group that sets the verbosity.
-/

set_option autoImplicit false

namespace SpirvInspector

namespace Tool

open CommandLine (Invocation Spec)

namespace Group

/-- Values that only groups of some sort have are told by these groups. -/
theorem filterMap_of_filter {α : Type} {view : Group → Option α} {sort : Group → Bool}
    (only : ∀ group, sort group = false → view group = none) {groups others : List Group}
    (same : groups.filter sort = others.filter sort) :
    groups.filterMap view = others.filterMap view := by
  have told (list : List Group) : list.filterMap view = (list.filter sort).filterMap view := by
    rw [List.filterMap_filter]
    apply List.filterMap_congr
    intro group _
    cases isSort : sort group with
    | true => simp
    | false => simp [only group isSort]
  rw [told groups, same, ← told others]

/-- Groups of which the last one sets the verbosity. -/
def setsLevels (group : Group) : Bool :=
  group.kind = .quiet || group.kind = .verbosity

end Group

/-- Groups in another order, but for the order of files and of the groups that set the verbosity. -/
structure Reordered (groups others : List Group) : Prop where
  permuted : groups.Perm others
  files : groups.filter (·.kind = .file) = others.filter (·.kind = .file)
  levels : groups.filter Group.setsLevels = others.filter Group.setsLevels

namespace Reordered

variable {groups others : List Group}

theorem symm (reordered : Reordered groups others) : Reordered others groups :=
  ⟨reordered.permuted.symm, reordered.files.symm, reordered.levels.symm⟩

theorem fits (reordered : Reordered groups others) (fits : Fits [] groups) : Fits [] others := by
  have kinds := reordered.permuted.map Group.kind
  constructor
  case once => exact (kinds.filter _).nodup_iff.mp fits.once
  case valid =>
    intro group isGroup
    exact fits.valid group (reordered.permuted.mem_iff.mpr isGroup)
  case filed => exact kinds.mem_iff.mp fits.filed

/-- An option that is given once has no order. -/
theorem limits (reordered : Reordered groups others) (fits : Fits [] groups) :
    groups.filter (·.kind = .limit) = others.filter (·.kind = .limit) := by
  have permuted := reordered.permuted.filter fun group => decide (group.kind = .limit)
  have single : (groups.filter (·.kind = .limit)).length ≤ 1 := by
    have once := List.nodup_iff_count_le_one.mp fits.once .limit
    rw [List.count_filter (by decide)] at once
    rw [← List.countP_eq_length_filter]
    simpa [List.count, List.countP_map, Function.comp_def, beq_eq_decide] using once
  generalize groups.filter (·.kind = .limit) = limits at permuted single ⊢
  match limits with
  | [] => exact permuted.nil_eq
  | [limit] => exact (List.perm_singleton.mp permuted.symm).symm
  | _ :: _ :: _ => simp at single

theorem outcome (reordered : Reordered groups others) (fits : Fits [] groups)
    (options : Options) : Group.outcome options groups = Group.outcome options others := by
  have names : groups.filterMap Group.name? = others.filterMap Group.name? := by
    refine Group.filterMap_of_filter ?_ reordered.files
    intro group isOther
    cases group with
    | file name => cases isOther
    | _ => rfl
  have limits : groups.filterMap Group.limit? = others.filterMap Group.limit? := by
    refine Group.filterMap_of_filter ?_ (reordered.limits fits)
    intro group isOther
    cases group with
    | limit spelling value => cases isOther
    | _ => rfl
  have levels : groups.filterMap Group.levels? = others.filterMap Group.levels? := by
    refine Group.filterMap_of_filter ?_ reordered.levels
    intro group isOther
    cases group with
    | quiet naming => cases isOther
    | verbosity naming value => cases isOther
    | _ => rfl
  simp only [Group.outcome, Group.last?, names, limits, levels, reordered.permuted.any_eq]

end Reordered

/-- What a token is taken for. -/
inductive Role
  | option
  | value
  | file
deriving DecidableEq, Repr

/-- The roles in which a call has taken its tokens. -/
def consumed (call : Invocation Options) : List (Bytes × Role) :=
  match call.tokens with
  | [] => []
  | first :: next =>
    (first, if call.entry.isArgument then .file else .option) ::
      next.map fun token => (token, .value)

def Group.roles (group : Group) : List (Bytes × Role) :=
  (group.caller, if group.kind = .file then .file else .option) ::
    group.next.map fun token => (token, .value)

theorem consumed_call (group : Group) : consumed group.call = group.roles := by
  cases group <;> rfl

/-- Each token is taken once, in the role that it has in its group. -/
structure Consumed (groups : List Group) : Prop where
  tokens : (spec.recordAll {} (Group.line groups)).calls.flatMap Invocation.tokens =
    Group.line groups
  roles : (spec.recordAll {} (Group.line groups)).calls.flatMap consumed =
    groups.flatMap Group.roles

theorem consumed_groups {groups : List Group} (fits : Fits [] groups) : Consumed groups := by
  rcases recordAll_groups groups with ⟨-, recorded⟩ | ⟨misfits, -⟩
  · constructor
    case tokens => exact Spec.tokens_recordAll (by rw [recorded])
    case roles =>
      rw [recorded, List.flatMap_map]
      simp only [consumed_call]
  · exact (misfits fits).elim

/-- A command line is accepted in any order of its groups, and it sets the same options. -/
theorem parse_reordered {groups others : List Group} (reordered : Reordered groups others) :
    (∀ options, spec.parse {} (Group.line groups) = (none, options) ↔
      spec.parse {} (Group.line others) = (none, options)) ∧
    ∀ options, spec.parse {} (Group.line groups) = (none, options) →
      Consumed groups ∧ Consumed others := by
  constructor
  · intro options
    rw [parse_groups, parse_groups]
    constructor
    · rintro ⟨fits, rfl⟩
      exact ⟨reordered.fits fits, (reordered.outcome fits {}).symm⟩
    · rintro ⟨fits, rfl⟩
      exact ⟨reordered.symm.fits fits, (reordered.symm.outcome fits {}).symm⟩
  · intro options accepted
    have fits := ((parse_groups groups options).mp accepted).1
    exact ⟨consumed_groups fits, consumed_groups (reordered.fits fits)⟩

/-- Options between two files. -/
def scattered : List Group :=
  [.verbosity .long (some ⟨ascii "2", by decide⟩), .file ⟨ascii "a.spv", by decide⟩, .dump .short,
    .quiet .short, .limit .shortNext (ascii "5"), .file ⟨ascii "-", by decide⟩]

def gathered : List Group :=
  [.limit .shortNext (ascii "5"), .verbosity .long (some ⟨ascii "2", by decide⟩), .quiet .short,
    .dump .short, .file ⟨ascii "a.spv", by decide⟩, .file ⟨ascii "-", by decide⟩]

theorem parse_gathered :
    spec.parse {} (Group.line gathered) =
        (none, ⟨#[ascii "a.spv", ascii "-"], true, 5, false, -1, 2⟩) ∧
      spec.parse {} (Group.line scattered) = spec.parse {} (Group.line gathered) ∧
      Consumed scattered := by
  have reordered : Reordered scattered gathered := ⟨by decide, by decide, by decide⟩
  obtain ⟨same, consumed⟩ := parse_reordered reordered
  have accepted : spec.parse {} (Group.line gathered) =
      (none, ⟨#[ascii "a.spv", ascii "-"], true, 5, false, -1, 2⟩) := by
    decide
  have acceptedToo := (same _).mpr accepted
  exact ⟨accepted, acceptedToo.trans accepted.symm, (consumed _ acceptedToo).1⟩

end Tool

end SpirvInspector
