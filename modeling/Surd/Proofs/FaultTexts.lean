import Surd.Fault.Message
import Surd.Proofs.TextContents

/-! What the messages for the user are made of. Numbers and quoted texts cannot bring a control
character into a message, so that it has to come from the few texts that stand there as they are: a
label, the name of a file or of a setting, a path. -/

namespace Surd

section
variable {ε α β : Type} {b : β}

/-- A computation of two steps answers where both do. -/
theorem bind_eq_ok_iff {first : Except ε α} {next : α → Except ε β} :
    first >>= next = .ok b ↔ ∃ a, first = .ok a ∧ next a = .ok b := by
  cases first with
  | error e =>
    constructor
    · rintro ⟨⟩
    · rintro ⟨_, ⟨⟩, _⟩
  | ok a => exact ⟨fun answered => ⟨a, rfl, answered⟩, fun ⟨_, same, answered⟩ => Except.ok.inj same ▸ answered⟩

theorem map_eq_ok_iff {first : Except ε α} {f : α → β} : first.map f = .ok b ↔ ∃ a, first = .ok a ∧ f a = b := by
  cases first with
  | error e =>
    constructor
    · rintro ⟨⟩
    · rintro ⟨_, ⟨⟩, _⟩
  | ok a =>
    refine ⟨fun answered => ⟨a, rfl, Except.ok.inj answered⟩, ?_⟩
    rintro ⟨_, ⟨⟩, rfl⟩
    rfl

/-- Behind a check, a computation answers where the check is passed. -/
theorem guard_bind_eq_ok_iff {passed : Prop} [Decidable passed] {e : ε} {next : Except ε β} :
    ((if passed then .ok () else .error e) >>= fun _ => next) = .ok b ↔ passed ∧ next = .ok b := by
  by_cases holds : passed
  · rw [if_pos holds, bind_eq_ok_iff]
    exact ⟨fun ⟨_, _, answered⟩ => ⟨holds, answered⟩, fun ⟨_, answered⟩ => ⟨(), rfl, answered⟩⟩
  · rw [if_neg holds, bind_eq_ok_iff]
    constructor
    · rintro ⟨_, ⟨⟩, _⟩
    · exact fun both => absurd both.1 holds

end

/-- A computation fails and answers only as is said. -/
def Ends {ε α : Type} (fails : ε → Prop) (answers : α → Prop) : Except ε α → Prop
  | .error e => fails e
  | .ok a => answers a

namespace Ends
variable {ε α β : Type} {fails : ε → Prop} {middle : α → Prop} {answers : β → Prop}

theorem bind {first : Except ε α} {next : α → Except ε β} (start : Ends fails middle first)
    (rest : ∀ a, middle a → Ends fails answers (next a)) : Ends fails answers (first >>= next) := by
  cases first with
  | error e => exact start
  | ok a => exact rest a start

theorem map {first : Except ε α} {f : α → β} (start : Ends fails middle first)
    (kept : ∀ a, middle a → answers (f a)) : Ends fails answers (first.map f) := by
  cases first with
  | error e => exact start
  | ok a => exact kept a start

theorem mapError {ε' : Type} {first : Except ε α} {f : ε → ε'} {others : ε' → Prop} (start : Ends fails middle first)
    (failing : ∀ e, fails e → others (f e)) : Ends others middle (first.mapError f) := by
  cases first with
  | error e => exact failing e start
  | ok a => exact start

theorem mono {first : Except ε α} {others : ε → Prop} {wider : α → Prop} (start : Ends fails middle first)
    (failing : ∀ e, fails e → others e) (kept : ∀ a, middle a → wider a) : Ends others wider first := by
  cases first with
  | error e => exact failing e start
  | ok a => exact kept a start

theorem answer {first : Except ε α} {a : α} (ends : Ends fails middle first) (same : first = .ok a) : middle a := by
  subst same
  exact ends

theorem fault {first : Except ε α} {e : ε} (ends : Ends fails middle first) (same : first = .error e) : fails e := by
  subst same
  exact ends

end Ends

namespace Fault
open Text (Control lacks_append lacks_toString)

/-- The texts that a message for the user shows as they are. -/
def rawTexts : Fault → List String
  | .notInteger label kind => [label, kind]
  | .outsideWord label _ => [label]
  | .partNotInteger kind => [kind]
  | .notFraction kind => [kind]
  | .unreadableInteger label _ => [label]
  | .readOutsideWord label _ => [label]
  | .malformedSettings file => [file]
  | .sectionNotTable file name => [file, name]
  | .settingNotPositive file key _ => [file, key]
  | .settingNotSwitch file key => [file, key]
  | .missingSettings path => [path]
  | _ => []

def Lacks (c : Char) (fault : Fault) : Prop := ∀ text ∈ fault.rawTexts, Text.Lacks c text

/-- A computation whose faults do not hold a character. -/
abbrev Spared {α : Type} (c : Char) (result : Except Fault α) : Prop := Ends (Lacks c) (fun _ => True) result

variable {c : Char} {fault : Fault}

theorem lacks_of_no_text (none : fault.rawTexts = []) : fault.Lacks c := by
  intro text member
  rw [none] at member
  cases member

theorem lacks_of_one_text {text : String} (one : fault.rawTexts = [text]) (lacks : Text.Lacks c text) :
    fault.Lacks c := by
  intro other member
  rw [one, List.mem_singleton] at member
  exact member ▸ lacks

theorem Lacks.showing (lacks : fault.Lacks c) (numbers : List Int) : (fault.showing numbers).Lacks c := by
  rcases fault.showing_cases numbers with same | long
  · rwa [same]
  · rw [long]
    exact lacks_of_no_text rfl

/-- Only the messages for the user are short of control characters; the others may show a path or a
text of any kind. -/
theorem lacks_message_iff (control : Control c) (told : fault.isUserError = true) :
    Text.Lacks c fault.message ↔ fault.Lacks c := by
  have wording : Text.Lacks c malformedWording := control.lacks rfl
  cases fault
  all_goals first
    | cases told; done
    | simp only [Lacks, rawTexts, List.mem_cons, List.not_mem_nil, or_false, forall_eq_or_imp, forall_eq]
      unfold message
      simp (disch := decide) only [lacks_append, lacks_toString, control.lacks, control.lacks_int, control.lacks_nat,
        control.lacks_quoted, control.lacks_rational, control.lacks_written, wording, and_true, true_and, and_self, forall_false,
        implies_true]

end Fault
end Surd
