import Mathlib
import XcodeProject.FileSystem

/-!
# A file is replaced as a whole

Replacing a file takes several steps, and each can fail.  Whatever happens, the outcome is one of
two: nothing is different, since the draft stood where nothing was and is gone again
(`replaceFile_eq_of_error`), or one file has the new content and nothing else is different
(`replaceFile_of_resolve`).

That this file is the one at the path takes an argument.  Loading follows the whole path; moving the
draft follows it to the last piece and takes that as a name in the directory it came to.  The two
agree because there is a file at the end of the path (`destination?_eq`).  The draft is there while
the path is followed for the second time, and does not lead it anywhere else (`resolve_set`).
-/

namespace XcodeProject.FileSystem

variable {fs after : FileSystem} {location there draft : Location} {path : String}
  {conditions : Conditions} {content : ByteArray}

/-! ## What stands where -/

lemma lookup_filter_ne (entries : List (Location × Entry)) {location other : Location}
    (h : other ≠ location) :
    (entries.filter (·.1 ≠ location)).lookup other = entries.lookup other := by
  induction entries with
  | nil => rfl
  | cons entry rest ih =>
    by_cases hentry : entry.1 = location
    · have hother : (other == entry.1) = false := beq_eq_false_iff_ne.mpr (hentry ▸ h)
      rw [List.filter_cons_of_neg (by simpa using hentry), ih, List.lookup_cons, hother]
    · rw [List.filter_cons_of_pos (by simpa using hentry), List.lookup_cons, List.lookup_cons, ih]

lemma lookup_filter_self (entries : List (Location × Entry)) (location : Location) :
    (entries.filter (·.1 ≠ location)).lookup location = none := by
  rw [List.lookup_eq_none_iff]
  intro entry hentry
  have hne : entry.1 ≠ location := of_decide_eq_true (List.mem_filter.mp hentry).2
  exact bne_iff_ne.mpr hne.symm

lemma entry_set (fs : FileSystem) {location : Location} (hlocation : location ≠ [])
    (entry : Entry) (other : Location) :
    FileSystem.entry? (fs.set location entry) other =
      if other = location then some entry else fs.entry? other := by
  unfold entry? set
  by_cases hother : other = location
  · rw [if_pos hother, hother, if_neg hlocation, List.lookup_append, lookup_filter_self]
    simp
  · have hlast : [(location, entry)].lookup other = none := by
      rw [List.lookup_cons, beq_eq_false_iff_ne.mpr hother, List.lookup_nil]
    rw [if_neg hother, List.lookup_append, lookup_filter_ne _ hother, hlast, Option.or_none]

lemma ne_nil_of_entry?_eq_none (h : fs.entry? location = none) : location ≠ [] := by
  rintro rfl
  cases h

/-- What was put where nothing stood is removed again. -/
lemma remove_set (h : fs.entry? location = none) (entry : Entry) :
    (fs.set location entry).remove location = fs := by
  have hlookup : fs.entries.lookup location = none := by
    have hne := ne_nil_of_entry?_eq_none h
    unfold entry? at h
    rwa [if_neg hne] at h
  have hkept : fs.entries.filter (·.1 ≠ location) = fs.entries := by
    rw [List.filter_eq_self]
    intro other hother
    have hne := bne_iff_ne.mp (List.lookup_eq_none_iff.mp hlookup other hother)
    exact decide_eq_true hne.symm
  simp only [remove, set, hkept]
  rw [List.filter_append, hkept]
  simp

lemma set_set (fs : FileSystem) (location : Location) (entry entry' : Entry) :
    (fs.set location entry).set location entry' = fs.set location entry' := by
  simp [set, List.filter_append]

/-- Where something stood, a new entry elsewhere makes no difference. -/
lemma entry?_set_of_some (hdraft : fs.entry? draft = none) (entry : Entry) {found : Entry}
    (h : fs.entry? location = some found) :
    FileSystem.entry? (fs.set draft entry) location = some found := by
  have hne : location ≠ draft := by
    rintro rfl
    rw [hdraft] at h
    cases h
  rw [entry_set fs (ne_nil_of_entry?_eq_none hdraft), if_neg hne, h]

/-! ## Following paths -/

lemma walk_append (fs : FileSystem) (pieces more : List String) (here : Location) :
    fs.walk (pieces ++ more) here = (fs.walk pieces here).bind (fs.walk more) := by
  induction pieces generalizing here with
  | nil => rfl
  | cons piece rest ih =>
    rw [List.cons_append, walk, walk]
    split
    · split
      · exact ih here
      · split
        · exact ih _
        · simp only
          split
          · exact ih _
          · rfl
    · rfl

/-- The last piece of a path, where it is the name of a file. -/
lemma walk_of_isFileName {pieces : List String} {here directory : Location} {isSealed : Bool}
    (hname : isFileName (pieces.getLast?.getD "") = true)
    (hwalk : fs.walk pieces.dropLast here = some directory)
    (hdirectory : fs.entry? directory = some (.directory isSealed)) {location : Location}
    (h : fs.walk pieces here = some location) :
    location = directory ++ [pieces.getLast?.getD ""] := by
  simp only [isFileName, Bool.and_eq_true, decide_eq_true_eq] at hname
  obtain ⟨⟨⟨hempty, hdot⟩, hdots⟩, -⟩ := hname
  cases hlast : pieces.getLast? with
  | none =>
    rw [hlast] at hempty
    exact absurd rfl hempty
  | some name =>
    rw [hlast, Option.getD_some] at hempty hdot hdots
    rw [Option.getD_some]
    -- The walk to the file is the walk to the directory and one step more.
    have hpieces : pieces = pieces.dropLast ++ [name] := by
      rw [List.dropLast_append_getLast? name hlast]
    rw [hpieces, walk_append, hwalk, Option.bind_some, walk, hdirectory] at h
    simp only [hempty, hdot, hdots, or_self, if_false, walk] at h
    split at h
    · exact (Option.some.inj h).symm
    · cases h

/-- A walk that comes to its end does so with one more entry. -/
lemma walk_set (hdraft : fs.entry? draft = none) (entry : Entry) {pieces : List String}
    {here : Location} (h : fs.walk pieces here = some location) :
    (fs.set draft entry).walk pieces here = some location := by
  induction pieces generalizing here with
  | nil => exact h
  | cons piece rest ih =>
    rw [walk] at h ⊢
    split at h
    · next isSealed hhere =>
      rw [entry?_set_of_some hdraft entry hhere]
      simp only at h ⊢
      split at h
      · next hstay =>
        rw [if_pos hstay]
        exact ih h
      · next hstay =>
        rw [if_neg hstay]
        split at h
        · next hup =>
          rw [if_pos hup]
          exact ih h
        · next hup =>
          rw [if_neg hup]
          split at h
          · next hthere =>
            obtain ⟨found, hfound⟩ := Option.isSome_iff_exists.mp hthere
            rw [entry?_set_of_some hdraft entry hfound]
            exact ih h
          · cases h
    · cases h

lemma resolve_set (hdraft : fs.entry? draft = none) (entry : Entry)
    (h : fs.resolve path = some location) : (fs.set draft entry).resolve path = some location := by
  unfold resolve at h ⊢
  split at h
  · next husable =>
    rw [if_pos husable]
    exact walk_set hdraft entry h
  · cases h

/-- What it takes for a path to be one at which a file can be put. -/
lemma destination?_eq_some_iff : fs.destination? path = some location ↔
    isUsable path = true ∧ isFileName ((Path.pieces path).getLast?.getD "") = true ∧
      ∃ directory, fs.walk (Path.pieces path).dropLast (fs.start path) = some directory ∧
        fs.entry? directory = some (.directory false) ∧
        directory ++ [(Path.pieces path).getLast?.getD ""] = location ∧
        (fs.entry? location = none ∨ ∃ content, fs.entry? location = some (.file content)) := by
  unfold destination?
  simp only
  constructor
  · intro h
    split at h
    · next hpath =>
      obtain ⟨husable, hname⟩ := Bool.and_eq_true_iff.mp hpath
      refine ⟨husable, hname, ?_⟩
      split at h
      · cases h
      · next directory hwalk =>
        refine ⟨directory, hwalk, ?_⟩
        split at h
        · next hdirectory hnone =>
          cases h
          exact ⟨hdirectory, rfl, .inl hnone⟩
        · next content hdirectory hfile =>
          cases h
          exact ⟨hdirectory, rfl, .inr ⟨content, hfile⟩⟩
        · cases h
    · cases h
  · rintro ⟨husable, hname, directory, hwalk, hdirectory, rfl, hnone | ⟨content, hfile⟩⟩
    · rw [if_pos (Bool.and_eq_true_iff.mpr ⟨husable, hname⟩), hwalk]
      simp only [hdirectory, hnone]
    · rw [if_pos (Bool.and_eq_true_iff.mpr ⟨husable, hname⟩), hwalk]
      simp only [hdirectory, hfile]

/-- A file for a path goes where the path leads to, if that is anywhere. -/
lemma destination?_eq (hresolve : fs.resolve path = some location)
    (h : fs.destination? path = some there) : there = location := by
  obtain ⟨husable, hname, directory, hwalk, hdirectory, rfl, -⟩ := destination?_eq_some_iff.mp h
  rw [resolve, if_pos husable] at hresolve
  exact (walk_of_isFileName hname hwalk hdirectory hresolve).symm

/-- The draft is not in the way of the file. -/
lemma destination?_set (hdraft : fs.entry? draft = none) (h : fs.destination? path = some location)
    (content : ByteArray) :
    (fs.set draft (.file content)).destination? path = some location := by
  obtain ⟨husable, hname, directory, hwalk, hdirectory, hlocation, hentry⟩ :=
    destination?_eq_some_iff.mp h
  refine destination?_eq_some_iff.mpr ⟨husable, hname, directory, walk_set hdraft _ hwalk,
    entry?_set_of_some hdraft _ hdirectory, hlocation, ?_⟩
  rw [entry_set fs (ne_nil_of_entry?_eq_none hdraft)]
  split
  · exact .inr ⟨content, rfl⟩
  · exact hentry

/-! ## Replacing a file -/

/-- A draft is made where nothing stands. -/
lemma entry?_of_draft? (h : fs.draft? conditions path = some draft) : fs.entry? draft = none := by
  unfold draft? at h
  split at h
  · cases h
  · split at h
    · obtain ⟨name, hname, rfl⟩ := Option.map_eq_some_iff.mp h
      have hadmits := List.find?_some hname
      simp only [admitsDraft, Bool.and_eq_true, Option.isNone_iff_eq_none] at hadmits
      exact hadmits.2
    · cases h

/-- What replacing a file can come to: a reason, with the draft gone, or the new file if no step
fails. -/
lemma replaceFile_cases {result : Except String Unit}
    (h : fs.replaceFile conditions path content = (result, after)) :
    (∃ reason, result = .error reason ∧ after = fs) ∨
      result = .ok () ∧ (∀ step, conditions.writing path step = none) ∧
      ∃ draft location, fs.entry? draft = none ∧
        (fs.set draft (.file content)).destination? path = some location ∧
        after = fs.set location (.file content) := by
  unfold replaceFile at h
  split at h
  · next reason _ =>
    cases h
    exact .inl ⟨reason, rfl, rfl⟩
  · cases h
    exact .inl ⟨_, rfl, rfl⟩
  · next draft hcreate hdraft =>
    have hnone := entry?_of_draft? hdraft
    simp only [set_set, remove_set hnone] at h
    split at h
    · next reason _ =>
      cases h
      exact .inl ⟨reason, rfl, rfl⟩
    · next hfill =>
      split at h
      · next reason _ =>
        cases h
        exact .inl ⟨reason, rfl, rfl⟩
      · next hsync =>
        split at h
        · next reason _ =>
          cases h
          exact .inl ⟨reason, rfl, rfl⟩
        · cases h
          exact .inl ⟨_, rfl, rfl⟩
        · next location hrename hlocation =>
          cases h
          have hsteps : ∀ step, conditions.writing path step = none := by
            rintro (_ | _ | _ | _)
            exacts [hcreate, hfill, hsync, hrename]
          exact .inr ⟨rfl, hsteps, draft, location, hnone, hlocation, rfl⟩

/-- A file that is not replaced leaves nothing behind. -/
theorem replaceFile_eq_of_error {reason : String}
    (h : fs.replaceFile conditions path content = (.error reason, after)) : after = fs := by
  rcases replaceFile_cases h with ⟨-, -, hsame⟩ | ⟨hok, -⟩
  · exact hsame
  · cases hok

/-- A file that was there is replaced, and everything else is as it was. -/
theorem replaceFile_of_resolve (hresolve : fs.resolve path = some location)
    (h : fs.replaceFile conditions path content = (.ok (), after)) :
    after.content? location = some content ∧
      ∀ other, other ≠ location → after.entry? other = fs.entry? other := by
  rcases replaceFile_cases h with ⟨reason, herror, -⟩ | ⟨-, -, draft, there, hdraft, hthere, rfl⟩
  · cases herror
  · obtain rfl := destination?_eq (resolve_set hdraft _ hresolve) hthere
    obtain ⟨-, -, directory, -, -, rfl, -⟩ := destination?_eq_some_iff.mp hthere
    have hne : directory ++ [(Path.pieces path).getLast?.getD ""] ≠ [] := by simp
    constructor
    · rw [content?, entry_set fs hne, if_pos rfl]
    · intro other hother
      rw [entry_set fs hne, if_neg hother]

/-- Where no step fails and there is a place for the draft and one for the file, the file is
replaced. -/
lemma replaceFile_eq_ok (hsteps : ∀ step, conditions.writing path step = none)
    (hdraft : fs.draft? conditions path = some draft)
    (hlocation : fs.destination? path = some location) (content : ByteArray) :
    fs.replaceFile conditions path content = (.ok (), fs.set location (.file content)) := by
  have hnone := entry?_of_draft? hdraft
  have hdestination := destination?_set hnone hlocation content
  simp only [replaceFile, hsteps, hdraft, set_set, remove_set hnone, hdestination]

/-- A file is not replaced if a step fails. -/
lemma exists_error_of_writing {step : WriteStep} {reason : String}
    (hstep : conditions.writing path step = some reason) (fs : FileSystem) (content : ByteArray) :
    ∃ reason, fs.replaceFile conditions path content = (.error reason, fs) := by
  rcases replaceFile_cases (Prod.eta (fs.replaceFile conditions path content)).symm with
    ⟨reason, herror, hsame⟩ | ⟨-, hsteps, -⟩
  · exact ⟨reason, Prod.ext herror hsame⟩
  · rw [hsteps step] at hstep
    cases hstep

end XcodeProject.FileSystem
