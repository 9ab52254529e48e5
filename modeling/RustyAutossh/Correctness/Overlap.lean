import RustyAutossh.Correctness.Startup

/-!
# Supervisors that share a pidfile

Each of several supervisors writes one pidfile when it starts and removes it when it ends, in
any order. While the supervisor that wrote last runs, the file is there with its PID, exactly
in the runs in which no drop takes away what another supervisor has written over it.
-/

namespace RustyAutossh

universe u

/-- What happens to a supervisor: it starts with `write_pid`, it ends and drops its guard, or
it is killed and drops nothing. -/
inductive PidfileStep (ι : Type u) where
  | start (i : ι)
  | drop (i : ι)
  | kill (i : ι)
  deriving DecidableEq, Repr

/-- The host of the supervisors and the guards they hold. -/
structure Sharing (ι : Type u) where
  site : Site
  /-- The guard of a supervisor while it runs. -/
  guard : ι → Option PidfileGuard
  /-- The supervisor whose write came last. -/
  latest : Option ι

section Sharing

variable {ι : Type u} [DecidableEq ι]

/-- Nobody runs; a file that is there is stale. -/
def Sharing.initial (site : Site) : Sharing ι := ⟨site, fun _ => none, none⟩

/-- One step of one supervisor. A supervisor whose write fails does not run. -/
def Sharing.step (machine : ι → Machine) (path : PathBuf) (st : Sharing ι) :
    PidfileStep ι → Sharing ι
  | .start i =>
    if (st.guard i).isSome then st
    else
      match (machine i).writePid path st.site with
      | (.error _, site) => { st with site := site }
      | (.ok pidfile, site) => ⟨site, Function.update st.guard i (some pidfile), some i⟩
  | .drop i =>
    { st with
      site := (machine i).dropGuard (st.guard i) st.site
      guard := Function.update st.guard i none }
  | .kill i => { st with guard := Function.update st.guard i none }

/-- The steps of the supervisors in the order in which they happen. -/
def Sharing.run (machine : ι → Machine) (path : PathBuf) (st : Sharing ι)
    (steps : List (PidfileStep ι)) : Sharing ι :=
  steps.foldl (Sharing.step machine path) st

@[simp] theorem Sharing.run_nil (machine : ι → Machine) (path : PathBuf) (st : Sharing ι) :
    st.run machine path [] = st := rfl

@[simp] theorem Sharing.run_concat (machine : ι → Machine) (path : PathBuf) (st : Sharing ι)
    (before : List (PidfileStep ι)) (s : PidfileStep ι) :
    st.run machine path (before ++ [s]) = (st.run machine path before).step machine path s := by
  simp [Sharing.run]

/-- What each step of a run preserves holds after every part of it. -/
theorem Sharing.run_induction {machine : ι → Machine} {path : PathBuf} {st : Sharing ι}
    {steps : List (PidfileStep ι)} {P : Sharing ι → Prop} (hinit : P st)
    (hstep : ∀ before s, before ++ [s] <+: steps → P (st.run machine path before) →
      P ((st.run machine path before).step machine path s)) :
    ∀ before, before <+: steps → P (st.run machine path before) := by
  intro before
  induction before using List.reverseRecOn with
  | nil => exact fun _ => hinit
  | append_singleton before s ih =>
    intro hbefore
    rw [Sharing.run_concat]
    exact hstep before s hbefore (ih ((List.prefix_append before [s]).trans hbefore))

/-- The file is there with the PID of this supervisor. -/
def Sharing.Names (machine : ι → Machine) (path : PathBuf) (st : Sharing ι) (i : ι) : Prop :=
  st.site.files path = some (intoBytes (toString (machine i).pid.toNat ++ "\n"))

/-- Ending supervisor `i` takes nothing from the others: it does not run, nobody has written
after it, the file is gone already, or the system refuses to remove it. -/
def Sharing.Spares (machine : ι → Machine) (path : PathBuf) (st : Sharing ι) (i : ι) : Prop :=
  st.guard i = none ∨ st.latest = some i ∨ st.site.files path = none ∨
    (machine i).removeError path ≠ none

/-- While the supervisor that wrote last runs, the file names it, and a supervisor that ends
removes only a file that it wrote last and that names it. -/
structure PidfileKept (machine : ι → Machine) (path : PathBuf) (site : Site)
    (steps : List (PidfileStep ι)) : Prop where
  named : ∀ before i, before <+: steps →
    ((Sharing.initial site).run machine path before).latest = some i →
    ((Sharing.initial site).run machine path before).guard i ≠ none →
    ((Sharing.initial site).run machine path before).Names machine path i
  removed : ∀ before i, before ++ [.drop i] <+: steps →
    ((Sharing.initial site).run machine path before).site.files path ≠ none →
    ((Sharing.initial site).run machine path (before ++ [.drop i])).site.files path = none →
    ((Sharing.initial site).run machine path before).latest = some i ∧
      ((Sharing.initial site).run machine path before).Names machine path i

/-- In every run the guards are for the shared path, and the file is the one written last or
is gone. -/
structure Sharing.Sound (machine : ι → Machine) (path : PathBuf) (st : Sharing ι) : Prop where
  guards : ∀ i pidfile, st.guard i = some pidfile → pidfile.path = path
  file : ∀ i, st.latest = some i → st.site.files path = none ∨ st.Names machine path i

/-- While the supervisor that wrote last runs, there is a file. -/
def Sharing.Present (path : PathBuf) (st : Sharing ι) : Prop :=
  ∀ i, st.latest = some i → st.guard i ≠ none → st.site.files path ≠ none

/-- A start changes nothing, or it is a write of the file. -/
theorem Sharing.step_start_cases (machine : ι → Machine) (path : PathBuf) (st : Sharing ι)
    (i : ι) : st.step machine path (.start i) = st ∨
      st.step machine path (.start i) =
        ⟨st.site.setFile path (some (intoBytes (toString (machine i).pid.toNat ++ "\n"))),
          Function.update st.guard i (some ⟨path⟩), some i⟩ := by
  simp only [Sharing.step, Machine.writePid]
  split
  · exact .inl rfl
  · cases (machine i).writeError path with
    | some source => exact .inl rfl
    | none => exact .inr rfl

/-- A drop removes the file, or leaves it where there is no guard or the system refuses. -/
theorem Sharing.Sound.drop_files {machine : ι → Machine} {path : PathBuf} {st : Sharing ι}
    (h : st.Sound machine path) (i : ι) :
    (st.step machine path (.drop i)).site.files path =
      if st.guard i = none ∨ (machine i).removeError path ≠ none then st.site.files path
      else none := by
  simp only [Sharing.step, Machine.dropGuard]
  cases hg : st.guard i with
  | none => simp
  | some pidfile =>
    obtain rfl := h.guards i pidfile hg
    cases hr : (machine i).removeError pidfile.path with
    | some e => simp [hr]
    | none => simp [hr, Site.setFile]

/-- A supervisor whose guard another step has given up does not run. -/
private theorem guard_of_update {guard : ι → Option PidfileGuard} {i j : ι} {g : PidfileGuard}
    (h : Function.update guard i none j = some g) : guard j = some g := by
  by_cases hj : j = i
  · subst hj
    simp at h
  · rwa [Function.update_of_ne hj] at h

theorem Sharing.Sound.step {machine : ι → Machine} {path : PathBuf} {st : Sharing ι}
    (h : st.Sound machine path) (s : PidfileStep ι) :
    (st.step machine path s).Sound machine path := by
  cases s with
  | start i =>
    rcases st.step_start_cases machine path i with heq | heq
    · rwa [heq]
    · rw [heq]
      refine ⟨fun j pidfile hj => ?_, fun j hj => .inr ?_⟩
      · simp only at hj
        by_cases hji : j = i
        · subst hji
          rw [Function.update_self, Option.some.injEq] at hj
          rw [← hj]
        · rw [Function.update_of_ne hji] at hj
          exact h.guards j pidfile hj
      · obtain rfl := Option.some.inj hj
        simp [Sharing.Names, Site.setFile]
  | drop i =>
    refine ⟨fun j pidfile hj => h.guards j pidfile (guard_of_update hj), fun j hj => ?_⟩
    unfold Sharing.Names
    rw [h.drop_files]
    split
    · exact h.file j hj
    · exact .inl rfl
  | kill i =>
    exact ⟨fun j pidfile hj => h.guards j pidfile (guard_of_update hj), h.file⟩

/-- A drop that spares the others leaves the file of the supervisor that wrote last, if that
one goes on. -/
theorem Sharing.Present.step {machine : ι → Machine} {path : PathBuf} {st : Sharing ι}
    (h : st.Present path) (hsound : st.Sound machine path) {s : PidfileStep ι}
    (hspares : ∀ i, s = .drop i → st.Spares machine path i) :
    (st.step machine path s).Present path := by
  cases s with
  | start i =>
    rcases st.step_start_cases machine path i with heq | heq
    · rwa [heq]
    · rw [heq]
      intro j _ _
      simp [Site.setFile]
  | drop i =>
    intro j hlatest hguard
    obtain ⟨pidfile, hpidfile⟩ := Option.ne_none_iff_exists'.mp hguard
    have hrunning : st.guard j = some pidfile := guard_of_update hpidfile
    have hne : j ≠ i := by
      rintro rfl
      exact hguard (Function.update_self ..)
    have hfile : st.site.files path ≠ none := h j hlatest (by simp [hrunning])
    rw [hsound.drop_files]
    rcases hspares i rfl with hg | hlast | hgone | hrefused
    · rwa [if_pos (.inl hg)]
    · exact absurd (Option.some.inj (hlatest.symm.trans hlast)) hne
    · exact absurd hgone hfile
    · rwa [if_pos (.inr hrefused)]
  | kill i =>
    intro j hlatest hguard
    obtain ⟨pidfile, hpidfile⟩ := Option.ne_none_iff_exists'.mp hguard
    exact h j hlatest (by simp [guard_of_update hpidfile])

/-- Only the supervisor that wrote last runs. -/
def Sharing.Alone (st : Sharing ι) : Prop := ∀ i, st.guard i ≠ none → st.latest = some i

theorem Sharing.Alone.step {machine : ι → Machine} {path : PathBuf} {st : Sharing ι}
    (h : st.Alone) {s : PidfileStep ι} (hstart : ∀ i, s = .start i → ∀ j, st.guard j = none) :
    (st.step machine path s).Alone := by
  cases s with
  | start i =>
    rcases st.step_start_cases machine path i with heq | heq
    · rwa [heq]
    · rw [heq]
      intro j hj
      by_contra hne
      have hji : j ≠ i := by
        rintro rfl
        exact hne rfl
      exact hj ((Function.update_of_ne hji _ _).trans (hstart i rfl j))
  | drop i | kill i =>
    intro j hj
    obtain ⟨pidfile, hpidfile⟩ := Option.ne_none_iff_exists'.mp hj
    exact h j (by simp [guard_of_update hpidfile])

theorem Sharing.run_sound (machine : ι → Machine) (path : PathBuf) (site : Site)
    (before : List (PidfileStep ι)) :
    ((Sharing.initial site).run machine path before).Sound machine path := by
  have hinit : (Sharing.initial site : Sharing ι).Sound machine path :=
    ⟨by simp [Sharing.initial], by simp [Sharing.initial]⟩
  exact Sharing.run_induction hinit (fun _ s _ ih => ih.step s) before (List.prefix_refl before)

section Runs

variable {machine : ι → Machine} {path : PathBuf} {site : Site} {steps : List (PidfileStep ι)}

/-- Where a drop does not spare the others, a file goes that the one that ends did not write
last. -/
theorem PidfileKept.spares (h : PidfileKept machine path site steps)
    (before : List (PidfileStep ι)) (i : ι) (hbefore : before ++ [.drop i] <+: steps) :
    ((Sharing.initial site).run machine path before).Spares machine path i := by
  by_contra hspares
  simp only [Sharing.Spares, not_or, not_not] at hspares
  obtain ⟨hguard, hlast, hfile, hallowed⟩ := hspares
  have hgone : ((Sharing.initial site).run machine path (before ++ [.drop i])).site.files path =
      none := by
    rw [Sharing.run_concat, (Sharing.run_sound machine path site before).drop_files,
      if_neg (by simp [hguard, hallowed])]
  exact hlast (h.removed before i hbefore hfile hgone).1

theorem PidfileKept.of_spares (h : ∀ before i, before ++ [.drop i] <+: steps →
    ((Sharing.initial site).run machine path before).Spares machine path i) :
    PidfileKept machine path site steps := by
  have hsound := Sharing.run_sound machine path site
  have hpresent : ∀ before, before <+: steps →
      ((Sharing.initial site).run machine path before).Present path := by
    have hinit : (Sharing.initial site : Sharing ι).Present path := by
      intro i hi
      simp [Sharing.initial] at hi
    refine Sharing.run_induction hinit fun before s hs hpresent => ?_
    refine hpresent.step (hsound before) ?_
    rintro j rfl
    exact h before j hs
  refine ⟨fun before i hbefore hlast hguard => ?_, fun before i hbefore hfile hgone => ?_⟩
  · exact ((hsound before).file i hlast).resolve_left (hpresent before hbefore i hlast hguard)
  · rw [Sharing.run_concat, (hsound before).drop_files] at hgone
    rcases h before i hbefore with hguard | hlast | habsent | hrefused
    · rw [if_pos (.inl hguard)] at hgone
      exact absurd hgone hfile
    · exact ⟨hlast, ((hsound before).file i hlast).resolve_left hfile⟩
    · exact absurd habsent hfile
    · rw [if_pos (.inr hrefused)] at hgone
      exact absurd hgone hfile

/-- Supervisors of which each starts when no other one runs keep the pidfile. -/
theorem PidfileKept.of_alone (h : ∀ before i, before ++ [.start i] <+: steps →
    ∀ j, ((Sharing.initial site).run machine path before).guard j = none) :
    PidfileKept machine path site steps := by
  have halone : ∀ before, before <+: steps →
      ((Sharing.initial site).run machine path before).Alone := by
    have hinit : (Sharing.initial site : Sharing ι).Alone := fun _ hi => absurd rfl hi
    refine Sharing.run_induction hinit fun before s hs halone => halone.step ?_
    rintro i rfl
    exact h before i hs
  refine PidfileKept.of_spares fun before i hbefore => ?_
  by_cases hguard : ((Sharing.initial site).run machine path before).guard i = none
  · exact .inl hguard
  · exact .inr (.inl (halone before ((List.prefix_append _ _).trans hbefore) i hguard))

end Runs

/-- Supervisors that share a pidfile keep it for the one that wrote last, and remove only
their own, in the runs in which every drop spares the others: there the supervisor that ends
wrote last, or no file is left, or the system does not let it go. -/
theorem pidfileKept_iff (machine : ι → Machine) (path : PathBuf) (site : Site)
    (steps : List (PidfileStep ι)) : PidfileKept machine path site steps ↔
      ∀ before i, before ++ [.drop i] <+: steps →
        ((Sharing.initial site).run machine path before).Spares machine path i :=
  ⟨PidfileKept.spares, PidfileKept.of_spares⟩

end Sharing

/-- Two supervisors on one host. -/
def twoMachines (i : Bool) : Machine :=
  { Machine.refusing fun _ => none with pid := if i then 200 else 100 }

/-- The restarted supervisor has written its PID; the old one ends and takes the file along. -/
theorem pidfile_lost_in_overlap :
    ¬ PidfileKept twoMachines (.utf8 "/run/p") ⟨[], fun _ => none, .initial .unix⟩
      [.start false, .start true, .drop false] := by
  intro hkept
  have h := hkept.named [.start false, .start true, .drop false] true (List.prefix_refl _)
    (by decide +kernel) (by decide +kernel)
  revert h
  unfold Sharing.Names
  decide +kernel

end RustyAutossh
