import Surd.Proofs.RunIndependence
import Surd.Proofs.SettingsOverlay

/-! Settings put in force one after the other. Each change replaces all that was in force, so that only the last one
counts, and the switches agree with the settings after every change. Looking a key up never fails: it finds what the
names of the key lead to, or else gives the default. -/

namespace Surd
namespace Context

/-- A change of what is in force: plain settings, named ones, whose names are all different, or nothing as in the
beginning. -/
inductive Change where
  | plain (entries : List (String × Value))
  | named (settings : Settings) (once : (settings.data.map Prod.fst).Nodup)
  | reset

namespace Change

/-- The context after a change, and the fault that the change ends with, if any. -/
def make (context : Context) : Change → Context × Option Fault
  | .plain entries => context.applyPlain (.table entries)
  | .named settings _ => context.applyNamed (.table settings.data) (.text settings.name)
  | .reset => (.fresh, none)

/-- Changes one after the other, up to the first that fails. -/
def makeAll (context : Context) : List Change → Context × Option Fault
  | [] => (context, none)
  | change :: rest =>
    match change.make context with
    | (next, none) => makeAll next rest
    | (left, some fault) => (left, some fault)

def entries : Change → List (String × Value)
  | .plain entries => entries
  | .named settings _ => settings.data
  | .reset => []

def profile : Change → String
  | .named settings _ => settings.name
  | _ => "default"

/-- The context that a change makes of any other one. -/
def outcome (change : Change) : Context := apply change.entries (.text change.profile)

private theorem make_eq (context : Context) (change : Change) : change.make context = (change.outcome, none) := by
  cases change with
  | plain entries => rfl
  | named settings once =>
    have whole : Settings.putAll [] settings.data = settings.data := Settings.putAll_eq_append once
    have made : (named settings once).make context =
        (context.adopt (Settings.putAll [] settings.data) (.text settings.name), none) := rfl
    rw [made, whole, adopt_eq_apply]
    rfl
  | reset => rfl

variable {context : Context}

theorem makeAll_cons (change : Change) (rest : List Change) :
    makeAll context (change :: rest) = makeAll change.outcome rest := by
  rw [makeAll, make_eq]

private theorem makeAll_concat (changes : List Change) (last : Change) :
    makeAll context (changes ++ [last]) = (last.outcome, none) := by
  induction changes generalizing context with
  | nil => exact makeAll_cons last []
  | cons change rest ih =>
    rw [List.cons_append, makeAll_cons]
    exact ih

end Change

/-- The switches of a context are the truth of what is looked up for them. -/
structure Synced (context : Context) : Prop where
  debug : ∃ value, context.getAny (.text "BEHAVIOUR.DEBUG") (.bool false) = .ok value ∧ context.debug = value.truth
  color : ∃ value, context.getAny (.text "OUTPUT.COLOR") (.bool true) = .ok value ∧ context.color = value.truth

theorem synced_apply (entries : List (String × Value)) (profile : Value) : Synced (apply entries profile) where
  debug := ⟨(apply entries profile).get "BEHAVIOUR.DEBUG" (.bool false), rfl, rfl⟩
  color := ⟨(apply entries profile).get "OUTPUT.COLOR" (.bool true), rfl, rfl⟩

theorem Synced.makeAll {context : Context} (synced : Synced context) (changes : List Change) :
    ∃ left, Change.makeAll context changes = (left, none) ∧ Synced left := by
  induction changes generalizing context with
  | nil => exact ⟨context, rfl, synced⟩
  | cons change rest ih =>
    rw [Change.makeAll_cons]
    exact ih (synced_apply change.entries _)

/-- Changes of any kind, made in a new process. None of them fails, and the switches agree with the settings behind
them. The settings are those of the last change, and it leaves the same whatever went before it. A key that is not
empty has just one row of names. It finds the value that these lead to, and the default if they lead nowhere. -/
theorem getAny_after_changes (changes : List Change) :
    ∃ context, Change.makeAll fresh changes = (context, none) ∧ Synced context ∧
      (∀ before last, changes = before ++ [last] → context.settings = last.entries ∧
        ∀ start others, Change.makeAll start (others ++ [last]) = (context, none)) ∧
      ∀ key, key ≠ "" → ∃ names, (∀ other, Splits key other ↔ other = names) ∧ ∀ default,
        (∀ value, Leads (.table context.settings) names value → context.getAny (.text key) default = .ok value) ∧
        ((∀ value, ¬Leads (.table context.settings) names value) → context.getAny (.text key) default = .ok default) := by
  have initial : Synced fresh := synced_apply [] (.text "default")
  obtain ⟨context, made, synced⟩ := initial.makeAll changes
  refine ⟨context, made, synced, ?_, fun key present => ⟨parts key, fun other => splits_iff, fun default => ⟨?_, ?_⟩⟩⟩
  · rintro before last rfl
    rw [Change.makeAll_concat] at made
    cases made
    exact ⟨rfl, fun start others => Change.makeAll_concat others last⟩
  · exact fun value leads => getAny_of_leads present (splits_parts key) context default leads
  · exact getAny_of_astray present (splits_parts key) context default

/-- A list that is not empty turns traces on. A number has no settings in it, so that colours stay on, and the names of
a lone point are both empty. -/
theorem getAny_after_changes_odd_settings :
    let odd : List (String × Value) :=
      [("BEHAVIOUR", .table [("DEBUG", .list [.null])]), ("OUTPUT", .int 3), ("", .table [("", .text "x")])]
    ∃ context, Change.makeAll fresh [.named .standard (by decide), .reset, .plain odd] = (context, none) ∧
      context.debug = true ∧ context.color = true ∧ context.getAny (.text ".") .null = .ok (.text "x") ∧
      context.getAny (.text "OUTPUT.COLOR") (.text "no") = .ok (.text "no") := by
  intro odd
  obtain ⟨context, made, synced, last, found⟩ :=
    getAny_after_changes [.named .standard (by decide), .reset, .plain odd]
  have settings : context.settings = odd := (last [.named .standard (by decide), .reset] (.plain odd) rfl).1
  have astray : ∀ value, ¬Leads (.table odd) ["OUTPUT", "COLOR"] value := by
    rw [← descend_eq_none_iff]
    rfl
  rw [settings] at found
  obtain ⟨point, points, atPoint⟩ := found "." (by decide)
  obtain ⟨traces, debugs, atTraces⟩ := found "BEHAVIOUR.DEBUG" (by decide)
  obtain ⟨colors, shades, atColors⟩ := found "OUTPUT.COLOR" (by decide)
  obtain rfl : ["", ""] = point := (points _).mp ⟨by decide, rfl, by decide⟩
  obtain rfl : ["BEHAVIOUR", "DEBUG"] = traces := (debugs _).mp ⟨by decide, rfl, by decide⟩
  obtain rfl : ["OUTPUT", "COLOR"] = colors := (shades _).mp ⟨by decide, rfl, by decide⟩
  obtain ⟨debug, traced, debugRead⟩ := synced.debug
  obtain ⟨color, colored, colorRead⟩ := synced.color
  cases traced.symm.trans ((atTraces (.bool false)).1 (.list [.null]) (.through rfl (.through rfl .here)))
  cases colored.symm.trans ((atColors (.bool true)).2 astray)
  exact ⟨context, made, debugRead, colorRead, (atPoint .null).1 (.text "x") (.through rfl (.through rfl .here)),
    (atColors (.text "no")).2 astray⟩

end Context
end Surd
