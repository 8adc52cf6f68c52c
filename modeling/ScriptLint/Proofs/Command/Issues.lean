import ScriptLint.Command
import ScriptLint.Proofs.Log

/-!
# Where the issues of a command line come from

Each step of checking a command line has issues of its own: splitting it into arguments, reading
its tags, looking up its name, and the rules of single commands. What holds of the issues of a step
holds of all that it finds. Put together, the steps find nothing but the issues listed in
`Issue.IsOnTag` and `Issue.IsOnCommand` (`tagIssues_isOnTag`, `Command.lineIssues_isOnCommand`), so
a fact about all of them is one case analysis.
-/

namespace ScriptLint

/-- The issue is one that the tags of a text may have. -/
inductive Issue.IsOnTag : Issue → Prop
  | uneven (argument : Text) : IsOnTag (.unevenTag argument)
  | base (name : Text) : IsOnTag (.unknownTagBase name)
  | part (name : Text) : IsOnTag (.unknownTagPart name)
  | documented (name : Text) : IsOnTag (.documentedTag name)

/-- The issue is one that a command line may have. -/
inductive Issue.IsOnCommand : Issue → Prop
  | pointlessQuotes : IsOnCommand .pointlessQuotes
  | openQuote : IsOnCommand .openQuote
  | tag {issue : Issue} (h : issue.IsOnTag) : IsOnCommand issue
  | emptyCommand : IsOnCommand .emptyCommand
  | unknownCommand (name : Text) : IsOnCommand (.unknownCommand name)
  | tooFewArguments (name : Text) (least given : Nat) :
      IsOnCommand (.tooFewArguments name least given)
  | queueClear : IsOnCommand .queueClear
  | rawObject (argument : Text) : IsOnCommand (.rawObject argument)
  | undefinedName (name : Text) : IsOnCommand (.undefinedName name)
  | unsavedEntry (name : Text) : IsOnCommand (.unsavedEntry name)
  | unknownMechanism (name : Text) : IsOnCommand (.unknownMechanism name)
  | noMechanism : IsOnCommand .noMechanism

variable {P : Issue → Prop}

/-- Splitting a line finds quotes that are not closed or not needed. -/
theorem Argument.splitFrom_every (hopen : P .openQuote) (hquotes : P .pointlessQuotes)
    (quote : Option Char) (fresh : Bool) (current t : Text) :
    Every P (splitFrom quote fresh current t).2 := by
  fun_induction splitFrom quote fresh current t with
  | case1 => exact .single hopen
  | case2 => exact .nil
  | case3 _ _ _ _ _ he ih => rwa [he] at ih
  | case4 | case5 | case7 => assumption
  | case6 _ _ _ _ _ _ _ _ he ih =>
    rw [he] at ih
    exact .append (.ite .nil (.single hquotes)) ih

/-- A name in a tag is unknown, or one from the documentation. -/
theorem Tag.nameIssues_every {unknown : Text → Issue} (hunknown : ∀ t, P (unknown t))
    (hdocumented : ∀ t, P (.documentedTag t)) (known : List Text) (name : Text) :
    Every P (Tag.nameIssues known unknown name) :=
  .append (.ite .nil (.single (hunknown name))) (.ite (.single (hdocumented name)) .nil)

/-- A tag has issues on its base and on its parts. -/
theorem Tag.issues_every (hbase : ∀ t, P (.unknownTagBase t)) (hpart : ∀ t, P (.unknownTagPart t))
    (hdocumented : ∀ t, P (.documentedTag t)) (v : Vocabulary) (tag : Tag) :
    Every P (tag.issues v) := by
  refine .append ?_ (.flatMap fun _ _ => nameIssues_every hpart hdocumented _ _)
  split
  · exact .ite (nameIssues_every hbase hdocumented _ _) .nil
  · exact .nil

/-- The tags of a text have issues of their own, or their marks are uneven. -/
theorem tagIssues_every (huneven : ∀ t, P (.unevenTag t)) (hbase : ∀ t, P (.unknownTagBase t))
    (hpart : ∀ t, P (.unknownTagPart t)) (hdocumented : ∀ t, P (.documentedTag t)) (v : Vocabulary)
    (argument : Text) : Every P (tagIssues v argument) := by
  refine .flatMap fun visit _ => ?_
  cases visit with
  | argument t => exact .ite (.single (huneven t)) .nil
  | opens tag => exact .nil
  | closes tag => exact tag.issues_every hbase hpart hdocumented v

/-- Reading the tags of a text finds issues on tags only. -/
theorem tagIssues_isOnTag (v : Vocabulary) (argument : Text) :
    Every Issue.IsOnTag (tagIssues v argument) :=
  tagIssues_every .uneven .base .part .documented v argument

namespace Command

/-- A command has an unknown name or too few arguments. -/
theorem nameIssues_every (hunknown : ∀ t, P (.unknownCommand t))
    (hfew : ∀ t n m, P (.tooFewArguments t n m)) (v : Vocabulary) (c : Command) :
    Every P (c.nameIssues v) := by
  refine .ite .nil ?_
  split
  · exact .single (hunknown _)
  · exact .ite (.single (hfew _ _ _)) .nil

/-- A tag refers to a name that is not defined, or to an entry that is not saved. -/
theorem referenceIssues_every (hdefinition : ∀ t, P (.undefinedName t))
    (hentry : ∀ t, P (.unsavedEntry t)) (k : Known) (tag : Tag) :
    Every P (referenceIssues k tag) := by
  unfold referenceIssues
  split
  · split
    · exact .ite .nil (.single (hdefinition _))
    · exact .nil
  · split
    · exact .ite .nil (.single (hentry _))
    · exact .nil
  · exact .nil

/-- An argument has issues in the notation of an object, in its tags and on their references. -/
theorem argumentIssues_every {v : Vocabulary} {k : Known} {argument : Text}
    (hraw : ∀ t, P (.rawObject t)) (htags : Every P (tagIssues v argument))
    (hreferences : ∀ tag, Every P (referenceIssues k tag)) :
    Every P (argumentIssues v k argument) :=
  .append (.append (.ite (.single (hraw _)) .nil) htags) (.flatMap fun tag _ => hreferences tag)

/-- Of the arguments of `adjust`, none is a mechanism, or the mechanism is unknown. -/
theorem mechanismIssues_every (hnone : P .noMechanism) (hunknown : ∀ t, P (.unknownMechanism t))
    (v : Vocabulary) (arguments : List Text) : Every P (mechanismIssues v arguments) := by
  induction arguments with
  | nil => exact .single hnone
  | cons argument rest ih => exact .ite .nil (.ite ih (.ite .nil (.single (hunknown _))))

/-- The rules of single commands are on mechanisms and on clearing the queue. -/
theorem specialIssues_every (hnone : P .noMechanism) (hunknown : ∀ t, P (.unknownMechanism t))
    (hqueue : P .queueClear) (v : Vocabulary) (c : Command) : Every P (c.specialIssues v) := by
  refine .ite (mechanismIssues_every hnone hunknown v _) (.ite ?_ .nil)
  split
  · exact .ite (.single hqueue) .nil
  · exact .nil

/-- Checking a command line finds issues on commands only. -/
theorem lineIssues_isOnCommand (v : Vocabulary) (k : Known) (t : Text) :
    Every Issue.IsOnCommand (lineIssues v k t) := by
  refine .append (Argument.splitFrom_every .openQuote .pointlessQuotes _ _ _ _) ?_
  split
  · exact .single .emptyCommand
  · next c _ =>
    have harguments : Every Issue.IsOnCommand (c.arguments.flatMap (argumentIssues v k)) :=
      .flatMap fun argument _ => argumentIssues_every .rawObject
        (fun issue h => .tag (tagIssues_isOnTag v argument issue h))
        (referenceIssues_every .undefinedName .unsavedEntry k)
    exact .append (.append (nameIssues_every .unknownCommand .tooFewArguments v c) harguments)
      (specialIssues_every .noMechanism .unknownMechanism .queueClear v c)

end Command

end ScriptLint
