import Mathlib
import XcodeProject.CommandLine.Invocation

/-!
# The flag for a dry run

A request is one for a dry run if and only if the flag stands somewhere before `--`
(`dryRun_iff`).  Putting the flag there changes this about the request and nothing else
(`ofArguments_insert`).

Both come from what the other flags do: adding them is a function of the flags so far that neither
looks at the one for a dry run nor changes it (`Neutral`).

What runs rely on is no more than these two facts, whatever reads the arguments (`ReadsDryRun`).
-/

namespace XcodeProject.CommandLine

/-- The flag for a dry run is among the arguments that are read as flags. -/
def AsksForDryRun (arguments : List String) : Prop :=
  "--dry-run" ∈ arguments.takeWhile (· ≠ "--")

instance (arguments : List String) : Decidable (AsksForDryRun arguments) :=
  inferInstanceAs (Decidable ("--dry-run" ∈ arguments.takeWhile (· ≠ "--")))

/-- The flags with another word on whether to save. -/
def Flags.withDryRun (flags : Flags) (dryRun : Bool) : Flags :=
  { flags with dryRun }

/-- The request with another word on whether to save. -/
def Request.withDryRun (request : Request) (dryRun : Bool) : Request :=
  { request with dryRun }

/-! ## Other flags -/

/-- The flag for a dry run is neither looked at nor changed, and nothing is requested. -/
structure Neutral (addition : Flags → Except Invocation Flags) : Prop where
  /-- What is added does not depend on the flag and leaves it as it is. -/
  comm : ∀ flags dryRun,
    addition (flags.withDryRun dryRun) = (addition flags).map (·.withDryRun dryRun)
  /-- What may be settled is not a request. -/
  settles : ∀ flags request, addition flags ≠ .error (.register request)

namespace Neutral

lemma ok : Neutral .ok :=
  ⟨fun _ _ => rfl, fun _ _ h => by cases h⟩

lemma error {settled : Invocation} (h : ∀ request, settled ≠ .register request) :
    Neutral fun _ => .error settled :=
  ⟨fun _ _ => rfl, fun _ request heq => h request (Except.error.inj heq)⟩

lemma bind {first second : Flags → Except Invocation Flags} (h : Neutral first)
    (h' : Neutral second) : Neutral fun flags => (first flags).bind second := by
  constructor
  · intro flags dryRun
    simp only [h.comm flags dryRun]
    cases first flags with
    | error settled => rfl
    | ok added => exact h'.comm added dryRun
  · intro flags request heq
    cases hfirst : first flags with
    | error settled =>
      rw [hfirst] at heq
      exact h.settles flags request (hfirst.trans heq)
    | ok added =>
      rw [hfirst] at heq
      exact h'.settles added request heq

lemma dryRun_eq {addition : Flags → Except Invocation Flags} (h : Neutral addition)
    {flags added : Flags} (hadded : addition flags = .ok added) : added.dryRun = flags.dryRun := by
  have hcomm := h.comm flags flags.dryRun
  have hsame : flags.withDryRun flags.dryRun = flags := rfl
  rw [hsame, hadded] at hcomm
  have hkept : added = added.withDryRun flags.dryRun := Except.ok.inj hcomm
  rw [hkept]
  rfl

end Neutral

lemma neutral_add {flag : Flag} (hflag : flag ≠ .dryRun) : Neutral (·.add flag) := by
  cases flag with
  | dryRun => exact absurd rfl hflag
  | version => exact .error (by simp)
  | help => exact .error (by simp)
  | json =>
    refine ⟨fun flags dryRun => ?_, fun flags request => ?_⟩
    · unfold Flags.add Flags.withDryRun
      cases flags.json <;> rfl
    · unfold Flags.add
      cases flags.json <;> simp
  | verbose =>
    refine ⟨fun flags dryRun => ?_, fun flags request => ?_⟩
    · unfold Flags.add Flags.withDryRun
      cases flags.verbose <;> rfl
    · unfold Flags.add
      cases flags.verbose <;> simp

lemma ofLetter?_ne (letter : Char) : Flag.ofLetter? letter ≠ some .dryRun := by
  intro h
  obtain ⟨before, after, hlist, -⟩ := List.lookup_eq_some_iff.mp h
  have hmem : (letter, Flag.dryRun) ∈ before ++ (letter, Flag.dryRun) :: after := by simp
  rw [← hlist] at hmem
  simp at hmem

lemma ofName?_eq_dryRun {name : String} (h : Flag.ofName? name = some .dryRun) :
    name = "--dry-run" := by
  obtain ⟨before, after, hlist, -⟩ := List.lookup_eq_some_iff.mp h
  have hmem : (name, Flag.dryRun) ∈ before ++ (name, Flag.dryRun) :: after := by simp
  rw [← hlist] at hmem
  simpa using hmem

lemma neutral_addLetters (letters : List Char) : Neutral (·.addLetters letters) := by
  induction letters with
  | nil => exact .ok
  | cons letter rest ih =>
    cases hletter : Flag.ofLetter? letter with
    | none =>
      have heq : (fun flags : Flags => flags.addLetters (letter :: rest)) =
          fun _ => .error .mistake := by
        funext flags
        rw [Flags.addLetters, hletter]
      rw [heq]
      exact .error (by simp)
    | some flag =>
      have heq : (fun flags : Flags => flags.addLetters (letter :: rest)) =
          fun flags => (flags.add flag).bind (·.addLetters rest) := by
        funext flags
        simp only [Flags.addLetters, hletter]
        cases flags.add flag <;> rfl
      rw [heq]
      exact (neutral_add fun h => ofLetter?_ne letter (h ▸ hletter)).bind ih

lemma neutral_addArgument {argument : String} (h : argument ≠ "--dry-run") :
    Neutral (·.addArgument argument) := by
  unfold Flags.addArgument
  split
  · next rest hdashes =>
    cases hname : Flag.ofName? argument with
    | none => exact .error (by simp)
    | some flag =>
      refine neutral_add ?_
      rintro rfl
      exact h (ofName?_eq_dryRun hname)
  · next letters _ _ => exact neutral_addLetters letters
  · exact .ok

/-! ## Reading arguments -/

lemma addArgument_dryRun (flags : Flags) : flags.addArgument "--dry-run" =
    if flags.dryRun then .error .mistake else .ok (flags.withDryRun true) :=
  rfl

namespace Invocation

variable {flags : Flags} {positional arguments : List String} {request : Request}

lemma finish_eq_register (h : finish flags positional = .register request) :
    request.dryRun = flags.dryRun ∧
      ∀ dryRun,
        finish (flags.withDryRun dryRun) positional = .register (request.withDryRun dryRun) := by
  cases positional with
  | nil => cases h
  | cons project paths =>
    rw [finish] at h
    split at h
    · cases h
    · next hproject =>
      cases h
      refine ⟨rfl, fun dryRun => ?_⟩
      rw [finish, if_neg hproject]
      rfl

lemma asksForDryRun_cons {argument : String} (h : argument ≠ "--") :
    AsksForDryRun (argument :: arguments) ↔ argument = "--dry-run" ∨ AsksForDryRun arguments := by
  simp [AsksForDryRun, h, eq_comm]

lemma not_asksForDryRun_dashes (rest : List String) : ¬ AsksForDryRun ("--" :: rest) := by
  simp [AsksForDryRun]

/-- What the flags and positional arguments before an argument are after it, unless that is `--`. -/
def step (flags : Flags) (positional : List String) (argument : String) :
    Except Invocation (Flags × List String) :=
  if isFlagArgument argument then (flags.addArgument argument).map (·, positional)
  else if argument = "" ∧ positional = [] then .error .mistake
  else .ok (flags, positional ++ [argument])

lemma read_cons {argument : String} (h : argument ≠ "--") (rest : List String) :
    read flags positional (argument :: rest) =
      match step flags positional argument with
      | .error settled => settled
      | .ok (flags, positional) => read flags positional rest := by
  rw [read, if_neg h, step]
  split
  · cases flags.addArgument argument <;> rfl
  · split <;> rfl

lemma step_dryRun (flags : Flags) (positional : List String) :
    step flags positional "--dry-run" =
      if flags.dryRun then .error .mistake else .ok (flags.withDryRun true, positional) := by
  rw [step, if_pos (by decide), addArgument_dryRun]
  split <;> rfl

section Step

variable {argument : String} {settled : Invocation} {added : Flags} {more : List String}

lemma step_ne_register (h : step flags positional argument = .error settled) :
    settled ≠ .register request := by
  rintro rfl
  by_cases hargument : argument = "--dry-run"
  · rw [hargument, step_dryRun] at h
    split at h <;> cases h
  · unfold step at h
    split at h
    · have hneutral := neutral_addArgument hargument
      cases hadded : flags.addArgument argument with
      | error other =>
        rw [hadded] at h
        cases h
        exact hneutral.settles flags request hadded
      | ok added =>
        rw [hadded] at h
        cases h
    · split at h <;> cases h

lemma step_of_ne (h : argument ≠ "--dry-run")
    (hstep : step flags positional argument = .ok (added, more)) :
    added.dryRun = flags.dryRun ∧ ∀ dryRun,
      step (flags.withDryRun dryRun) positional argument = .ok (added.withDryRun dryRun, more) := by
  have hneutral := neutral_addArgument h
  unfold step at hstep ⊢
  split at hstep
  · next hflag =>
    cases hadded : flags.addArgument argument with
    | error settled =>
      rw [hadded] at hstep
      cases hstep
    | ok found =>
      rw [hadded] at hstep
      cases hstep
      refine ⟨hneutral.dryRun_eq hadded, fun dryRun => ?_⟩
      rw [if_pos hflag, hneutral.comm flags dryRun, hadded]
      rfl
  · next hflag =>
    split at hstep
    · cases hstep
    · next hempty =>
      cases hstep
      refine ⟨rfl, fun dryRun => ?_⟩
      rw [if_neg hflag, if_neg hempty]

/-- A request comes of the first argument and then of the others. -/
lemma exists_step {rest : List String} (h : argument ≠ "--")
    (hread : read flags positional (argument :: rest) = .register request) :
    ∃ added more, step flags positional argument = .ok (added, more) ∧
      read added more rest = .register request := by
  rw [read_cons h] at hread
  cases hstep : step flags positional argument with
  | error settled =>
    rw [hstep] at hread
    exact absurd hread (step_ne_register hstep)
  | ok next =>
    rw [hstep] at hread
    exact ⟨next.1, next.2, rfl, hread⟩

end Step

lemma read_dryRun_iff (h : read flags positional arguments = .register request) :
    request.dryRun = true ↔ flags.dryRun = true ∨ AsksForDryRun arguments := by
  induction arguments generalizing flags positional with
  | nil =>
    rw [(finish_eq_register h).1]
    simp [AsksForDryRun]
  | cons argument rest ih =>
    by_cases hdashes : argument = "--"
    · subst hdashes
      rw [read, if_pos rfl] at h
      rw [(finish_eq_register h).1]
      exact (or_iff_left (not_asksForDryRun_dashes rest)).symm
    · obtain ⟨added, more, hstep, hrest⟩ := exists_step hdashes h
      rw [ih hrest, asksForDryRun_cons hdashes]
      by_cases hdry : argument = "--dry-run"
      · -- This argument sets the flag, and was not preceded by another one that did.
        rw [hdry, step_dryRun] at hstep
        split at hstep
        · cases hstep
        · cases hstep
          simp [Flags.withDryRun, hdry]
      · rw [(step_of_ne hdry hstep).1]
        simp only [hdry, false_or]

lemma read_withDryRun (h : read flags positional arguments = .register request)
    (hasks : ¬ AsksForDryRun arguments) (dryRun : Bool) :
    read (flags.withDryRun dryRun) positional arguments =
      .register (request.withDryRun dryRun) := by
  induction arguments generalizing flags positional with
  | nil => exact (finish_eq_register h).2 dryRun
  | cons argument rest ih =>
    by_cases hdashes : argument = "--"
    · subst hdashes
      rw [read, if_pos rfl] at h ⊢
      exact (finish_eq_register h).2 dryRun
    · rw [asksForDryRun_cons hdashes, not_or] at hasks
      obtain ⟨added, more, hstep, hrest⟩ := exists_step hdashes h
      rw [read_cons hdashes, (step_of_ne hasks.1 hstep).2 dryRun]
      exact ih hrest hasks.2

lemma read_insert {before rest : List String} (hbefore : "--" ∉ before)
    (h : read flags positional (before ++ rest) = .register request)
    (hasks : request.dryRun = false) :
    read flags positional (before ++ "--dry-run" :: rest) =
      .register (request.withDryRun true) := by
  induction before generalizing flags positional with
  | nil =>
    rw [List.nil_append] at h
    have hnone : ¬ (flags.dryRun = true ∨ AsksForDryRun rest) := by
      rw [← read_dryRun_iff h, hasks]
      exact Bool.false_ne_true
    obtain ⟨hflags, hrest⟩ := not_or.mp hnone
    rw [List.nil_append, read_cons (by decide), step_dryRun, if_neg hflags]
    exact read_withDryRun h hrest true
  | cons argument others ih =>
    rw [List.mem_cons, not_or, eq_comm] at hbefore
    obtain ⟨hdashes, hothers⟩ := hbefore
    obtain ⟨added, more, hstep, hrest⟩ := exists_step hdashes h
    rw [List.cons_append, read_cons hdashes, hstep]
    exact ih hothers hrest

/-- A request is one for a dry run if and only if the flag is given. -/
theorem dryRun_iff (h : ofArguments arguments = .register request) :
    request.dryRun = true ↔ AsksForDryRun arguments := by
  rw [read_dryRun_iff h]
  simp [Flags.unset]

/-- One more flag for a dry run, anywhere before `--`. -/
theorem ofArguments_insert {before rest : List String} (hbefore : "--" ∉ before)
    (h : ofArguments (before ++ rest) = .register request)
    (hasks : ¬ AsksForDryRun (before ++ rest)) :
    ofArguments (before ++ "--dry-run" :: rest) = .register (request.withDryRun true) := by
  refine read_insert hbefore h ?_
  rw [← dryRun_iff h] at hasks
  exact Bool.eq_false_iff.mpr hasks

end Invocation

/-! ## What runs rely on -/

/-- A way to read arguments by which the flag for a dry run means what it should. -/
structure ReadsDryRun (read : List String → Invocation) : Prop where
  /-- A request is one for a dry run if and only if the flag is given. -/
  dryRun_iff : ∀ {arguments : List String} {request : Request},
    read arguments = .register request → (request.dryRun = true ↔ AsksForDryRun arguments)
  /-- The flag can be put anywhere before `--`, and changes nothing else about the request. -/
  insert : ∀ {before rest : List String} {request : Request}, "--" ∉ before →
    read (before ++ rest) = .register request → ¬ AsksForDryRun (before ++ rest) →
    read (before ++ "--dry-run" :: rest) = .register (request.withDryRun true)

theorem readsDryRun_ofArguments : ReadsDryRun Invocation.ofArguments where
  dryRun_iff := Invocation.dryRun_iff
  insert := Invocation.ofArguments_insert

end XcodeProject.CommandLine
