import HashBoard.Device.Fans
import Mathlib.Data.List.Basic

/-!
# Which fans get a duty

A group of fan outputs is driven in order. Whether an output takes a duty does not depend on what
was written for the others, so the group takes it exactly when each output by itself does. The
outputs before the first that fails have the duty; those after it are left as they were, whether
they work or not.
-/

namespace HashBoard.Device

/-! ### Written files -/

namespace Files

variable {f g k : Files} {paths more : List NodePath} {path : NodePath} {text : String}

/-- Of two trees the second has the same directories and differs from the first only at paths of a
list. -/
structure Written (paths : List NodePath) (f g : Files) : Prop where
  directories : ∀ path, g.node? path = some .directory ↔ f.node? path = some .directory
  others : ∀ path, path ∉ paths → g.node? path = f.node? path

theorem Written.refl (paths : List NodePath) (f : Files) : Written paths f f :=
  ⟨fun _ => Iff.rfl, fun _ _ => rfl⟩

theorem Written.trans (h : Written paths f g) (hnext : Written paths g k) : Written paths f k :=
  ⟨fun path => (hnext.directories path).trans (h.directories path),
    fun path hpath => (hnext.others path hpath).trans (h.others path hpath)⟩

theorem Written.mono (h : Written paths f g) (hsubset : paths ⊆ more) : Written more f g :=
  ⟨h.directories, fun path hpath => h.others path fun hmem => hpath (hsubset hmem)⟩

theorem written_put (hmem : path ∈ paths) (hpath : path ≠ [])
    (hfile : f.node? path ≠ some .directory) : Written paths f (f.put path (.file text)) := by
  constructor
  · intro other
    by_cases hsame : other = path
    · subst hsame
      rw [node?_put_self hpath]
      exact iff_of_false nofun hfile
    · rw [node?_put_of_ne hsame]
  · intro other hother
    exact node?_put_of_ne fun hsame => hother (hsame ▸ hmem)

theorem write_cases (f : Files) (path : NodePath) (text : String) :
    (∃ cause, f.write path text = .error cause) ∨
      f.node? path ≠ some .directory ∧ f.write path text = .ok (f.put path (.file text)) := by
  unfold write
  cases f.requireDirectories (ancestors path) with
  | error cause => exact .inl ⟨cause, rfl⟩
  | ok u =>
    cases hnode : f.node? path with
    | none => exact .inr ⟨nofun, rfl⟩
    | some node =>
      cases node with
      | directory => exact .inl ⟨_, rfl⟩
      | file old => exact .inr ⟨nofun, rfl⟩

end Files

/-! ### One output -/

namespace FanOutlet

open Files (Written)

variable {o other : FanOutlet} {f g : Files} {percent : UInt8} {name : String}

def setUpFiles (o : FanOutlet) : List NodePath :=
  [[o.directory, "export"], o.channelFile "period", o.channelFile "enable"]

def attributeFiles (o : FanOutlet) : List NodePath :=
  o.channelFile "duty_cycle" :: o.setUpFiles

theorem mem_attributeFiles {path : NodePath} (h : path ∈ o.attributeFiles) :
    path = [o.directory, "export"] ∨ ∃ name, path = [o.directory, "pwm0", name] := by
  simp only [attributeFiles, setUpFiles, channelFile, List.mem_cons, List.not_mem_nil,
    or_false] at h
  rcases h with rfl | rfl | rfl | rfl
  · exact .inr ⟨_, rfl⟩
  · exact .inl rfl
  · exact .inr ⟨_, rfl⟩
  · exact .inr ⟨_, rfl⟩

/-- What decides whether the files of outputs can be written: the directories, and what else is in
their place. -/
structure Alike (f g : Files) : Prop where
  directories : ∀ path, g.node? path = some .directory ↔ f.node? path = some .directory
  chips : ∀ chip, g.node? [chip] = f.node? [chip]
  channels : ∀ chip, g.node? [chip, "pwm0"] = f.node? [chip, "pwm0"]

theorem Alike.trans {k : Files} (h : Alike f g) (hnext : Alike g k) : Alike f k :=
  ⟨fun path => (hnext.directories path).trans (h.directories path),
    fun chip => (hnext.chips chip).trans (h.chips chip),
    fun chip => (hnext.channels chip).trans (h.channels chip)⟩

theorem alike_of_written (h : Written o.attributeFiles f g) : Alike f g := by
  refine ⟨h.directories, fun chip => h.others _ ?_, fun chip => h.others _ ?_⟩
  · intro hmem
    rcases mem_attributeFiles hmem with heq | ⟨name, heq⟩ <;> simp at heq
  · intro hmem
    rcases mem_attributeFiles hmem with heq | ⟨name, heq⟩ <;> simp at heq

/-- Whether an attribute of an output can be written. -/
def access (o : FanOutlet) (name : String) (f : Files) : Except DeviceError Unit :=
  (writeFile (o.channelFile name) "" f).map fun _ => ()

theorem writeFile_eq (o : FanOutlet) (name text : String) (f : Files) :
    writeFile (o.channelFile name) text f =
      (o.access name f).map fun _ => f.put (o.channelFile name) (.file text) := by
  unfold access writeFile Files.write
  cases f.requireDirectories (Files.ancestors (o.channelFile name)) with
  | error cause => rfl
  | ok u =>
    cases f.node? (o.channelFile name) with
    | none => rfl
    | some node => cases node <;> rfl

theorem not_directory_of_access (h : o.access name f = .ok ()) :
    f.node? (o.channelFile name) ≠ some .directory := by
  intro hdirectory
  unfold access writeFile Files.write at h
  cases hrequired : f.requireDirectories (Files.ancestors (o.channelFile name)) with
  | error cause =>
    rw [hrequired] at h
    cases h
  | ok u =>
    rw [hrequired, hdirectory] at h
    cases h

theorem access_congr (h : Alike f g) (o : FanOutlet) (name : String) :
    o.access name g = o.access name f := by
  have hrequired : g.requireDirectories (Files.ancestors (o.channelFile name)) =
      f.requireDirectories (Files.ancestors (o.channelFile name)) := by
    have hancestors : Files.ancestors (o.channelFile name) =
        [[], [o.directory], [o.directory, "pwm0"]] := rfl
    have hroot (files : Files) : files.node? [] = some .directory := if_pos rfl
    rw [hancestors]
    simp only [Files.requireDirectories, hroot, h.chips, h.channels]
  have hdirectory := h.directories (o.channelFile name)
  unfold access writeFile Files.write
  rw [hrequired]
  cases f.requireDirectories (Files.ancestors (o.channelFile name)) with
  | error cause => rfl
  | ok u =>
    by_cases hf : f.node? (o.channelFile name) = some .directory
    · rw [hf, hdirectory.2 hf]
    · have hg := mt hdirectory.1 hf
      generalize f.node? (o.channelFile name) = before at hf ⊢
      generalize g.node? (o.channelFile name) = after at hg ⊢
      rcases before with _ | _ | _ <;> rcases after with _ | _ | _ <;> first | rfl | contradiction

/-! ### Driving one output -/

def dutyFile (o : FanOutlet) : NodePath := o.channelFile "duty_cycle"

/-- The files have the time for which an output is off at a duty. -/
def HasDuty (o : FanOutlet) (percent : UInt8) (f : Files) : Prop :=
  ∃ time, inactiveTime? o.periodNs percent = some time ∧
    f.node? o.dutyFile = some (.file (toString time.toNat))

/-- The answer of an output that is set up, from its duty and what its files allow. -/
def dutyAnswer (o : FanOutlet) (percent : UInt8) (f : Files) : Except OutletFault Unit :=
  match inactiveTime? o.periodNs percent with
  | none => .error .overflow
  | some _ => (o.access "duty_cycle" f).mapError .device

def setUpAnswer (o : FanOutlet) (f : Files) : Except DeviceError Unit :=
  (o.access "period" f).bind fun _ => o.access "enable" f

/-- The answer of an output, from its duty and what its files allow. -/
def answer (o : FanOutlet) (percent : UInt8) (f : Files) : Except OutletFault Unit :=
  if o.ready then o.dutyAnswer percent f
  else ((o.setUpAnswer f).mapError .device).bind fun _ => o.dutyAnswer percent f

theorem answer_congr (h : Alike f g) (o : FanOutlet) (percent : UInt8) :
    o.answer percent g = o.answer percent f := by
  unfold answer dutyAnswer setUpAnswer
  rw [access_congr h, access_congr h, access_congr h]

/-- The files that an output leaves, from its answer and the files it was set up in: with the duty
if it took the duty. -/
def Leaves (o : FanOutlet) (percent : UInt8) (answered : Except OutletFault Unit)
    (prepared after : Files) : Prop :=
  match answered with
  | .error _ => after = prepared
  | .ok () => o.access "duty_cycle" prepared = .ok () ∧
    ∃ time, inactiveTime? o.periodNs percent = some time ∧
      after = prepared.put o.dutyFile (.file (toString time.toNat))

theorem Leaves.cases {answered : Except OutletFault Unit} {prepared after : Files}
    (h : o.Leaves percent answered prepared after) :
    after = prepared ∨ o.access "duty_cycle" prepared = .ok () ∧
      ∃ time, inactiveTime? o.periodNs percent = some time ∧
        after = prepared.put o.dutyFile (.file (toString time.toNat)) := by
  cases answered with
  | error fault => exact .inl h
  | ok u => exact .inr h

theorem written_offer (o : FanOutlet) (f : Files) : Written o.setUpFiles f (o.offer f) := by
  unfold offer
  rcases f.write_cases [o.directory, "export"] "0" with ⟨cause, heq⟩ | ⟨hfile, heq⟩
  · rw [heq]
    exact .refl _ _
  · rw [heq]
    exact Files.written_put List.mem_cons_self nofun hfile

theorem setUp_spec (o : FanOutlet) (f : Files) :
    (o.setUp f).1 = o.setUpAnswer f ∧
      (∃ ready, (o.setUp f).2.1 = { o with ready }) ∧
      Written o.setUpFiles f (o.setUp f).2.2 := by
  have hsubset : o.setUpFiles ⊆ o.attributeFiles := List.subset_cons_self _ _
  have hoffered := o.written_offer f
  have halike := alike_of_written (hoffered.mono hsubset)
  unfold setUp setUpAnswer
  dsimp only
  rw [writeFile_eq, access_congr halike]
  cases hperiod : o.access "period" f with
  | error cause => exact ⟨rfl, ⟨o.ready, rfl⟩, hoffered⟩
  | ok u =>
    have hset : Written o.setUpFiles f
        ((o.offer f).put (o.channelFile "period") (.file (toString o.periodNs.toNat))) := by
      refine hoffered.trans (Files.written_put (by simp [setUpFiles]) nofun ?_)
      exact not_directory_of_access ((access_congr halike o "period").trans hperiod)
    have hsetAlike := alike_of_written (hset.mono hsubset)
    dsimp only [Except.map]
    rw [writeFile_eq, access_congr hsetAlike]
    cases henable : o.access "enable" f with
    | error cause => exact ⟨rfl, ⟨o.ready, rfl⟩, hset⟩
    | ok u =>
      refine ⟨rfl, ⟨true, rfl⟩, hset.trans (Files.written_put (by simp [setUpFiles]) nofun ?_)⟩
      exact not_directory_of_access ((access_congr hsetAlike o "enable").trans henable)

theorem writeDuty_spec (o : FanOutlet) (percent : UInt8) (f : Files) :
    (o.writeDuty percent f).1 = o.dutyAnswer percent f ∧ (o.writeDuty percent f).2.1 = o ∧
      o.Leaves percent (o.dutyAnswer percent f) f (o.writeDuty percent f).2.2 := by
  unfold writeDuty dutyAnswer
  cases htime : inactiveTime? o.periodNs percent with
  | none => exact ⟨rfl, rfl, rfl⟩
  | some time =>
    dsimp only
    rw [writeFile_eq]
    cases haccess : o.access "duty_cycle" f with
    | error cause => exact ⟨rfl, rfl, rfl⟩
    | ok u => exact ⟨rfl, rfl, haccess, time, htime, rfl⟩

/-- An output answers by its duty and by what its files allow, and then its duty is written. It
touches its own attributes only. -/
theorem drive_spec (o : FanOutlet) (percent : UInt8) (f : Files) :
    (o.drive percent f).1 = o.answer percent f ∧
      (∃ ready, (o.drive percent f).2.1 = { o with ready }) ∧
      ∃ prepared, Written o.setUpFiles f prepared ∧
        o.Leaves percent (o.answer percent f) prepared (o.drive percent f).2.2 := by
  unfold drive answer
  cases hready : o.ready with
  | true =>
    obtain ⟨hanswer, hsame, hfiles⟩ := o.writeDuty_spec percent f
    simp only [if_true]
    exact ⟨hanswer, ⟨o.ready, hsame⟩, f, .refl _ _, hfiles⟩
  | false =>
    obtain ⟨hanswer, hsame, hwritten⟩ := o.setUp_spec f
    have halike := alike_of_written (hwritten.mono (List.subset_cons_self _ _))
    simp only [Bool.false_eq_true, if_false]
    rw [← hanswer]
    generalize o.setUp f = done at hsame hwritten halike ⊢
    obtain ⟨answered, after, prepared⟩ := done
    cases answered with
    | error cause => exact ⟨rfl, hsame, prepared, hwritten, rfl⟩
    | ok u =>
      obtain ⟨ready, rfl⟩ := hsame
      obtain ⟨hduty, hkept, hfiles⟩ := writeDuty_spec { o with ready } percent prepared
      have hsameAnswer : dutyAnswer { o with ready } percent prepared = o.dutyAnswer percent f := by
        unfold dutyAnswer
        rw [access_congr halike]
        rfl
      rw [hsameAnswer] at hduty hfiles
      exact ⟨hduty, ⟨ready, hkept⟩, prepared, hwritten, hfiles⟩

theorem written_drive (o : FanOutlet) (percent : UInt8) (f : Files) :
    Written o.attributeFiles f (o.drive percent f).2.2 := by
  obtain ⟨_, _, prepared, hwritten, hleaves⟩ := o.drive_spec percent f
  have hprepared := hwritten.mono (List.subset_cons_self (o.channelFile "duty_cycle") _)
  rcases hleaves.cases with hfiles | ⟨haccess, time, _, hfiles⟩
  · rwa [hfiles]
  · rw [hfiles]
    exact hprepared.trans
      (Files.written_put List.mem_cons_self nofun (not_directory_of_access haccess))

theorem hasDuty_of_answer (h : o.answer percent f = .ok ()) :
    o.HasDuty percent (o.drive percent f).2.2 := by
  obtain ⟨_, _, prepared, _, hleaves⟩ := o.drive_spec percent f
  rw [h] at hleaves
  obtain ⟨_, time, htime, hfiles⟩ := hleaves
  exact ⟨time, htime, hfiles ▸ Files.node?_put_self nofun⟩

/-- Another output of the same period leaves a duty or writes the same one. -/
theorem HasDuty.drive_other (h : o.HasDuty percent f) (hperiod : other.periodNs = o.periodNs) :
    o.HasDuty percent (other.drive percent f).2.2 := by
  obtain ⟨time, htime, hduty⟩ := h
  obtain ⟨_, _, prepared, hwritten, hleaves⟩ := other.drive_spec percent f
  have hprepared : prepared.node? o.dutyFile = some (.file (toString time.toNat)) := by
    refine (hwritten.others o.dutyFile ?_).trans hduty
    simp [setUpFiles, dutyFile, channelFile]
  refine ⟨time, htime, ?_⟩
  rcases hleaves.cases with hfiles | ⟨_, same, hsame, hfiles⟩
  · rwa [hfiles]
  · rw [hfiles]
    by_cases hfile : o.dutyFile = other.dutyFile
    · rw [hperiod, htime, Option.some_inj] at hsame
      rw [hfile, Files.node?_put_self (by nofun), hsame]
    · rw [Files.node?_put_of_ne hfile, hprepared]

end FanOutlet

/-! ### The group -/

namespace FanGroup

open Files (Written)
open FanOutlet (Alike)

variable {periodNs : UInt32} {percent : UInt8} {f : Files} {before : List FanOutlet}

theorem driveAll_cons_of_ok {o : FanOutlet} (h : (o.drive percent f).1 = .ok ())
    (rest : List FanOutlet) :
    driveAll percent (o :: rest) f =
      ((driveAll percent rest (o.drive percent f).2.2).1,
        (o.drive percent f).2.1 :: (driveAll percent rest (o.drive percent f).2.2).2.1,
        (driveAll percent rest (o.drive percent f).2.2).2.2) := by
  rw [driveAll]
  generalize o.drive percent f = done at h ⊢
  obtain ⟨answered, after, files⟩ := done
  obtain rfl : answered = .ok () := h
  rfl

theorem driveAll_cons_of_error {o : FanOutlet} {fault : OutletFault}
    (h : (o.drive percent f).1 = .error fault) (rest : List FanOutlet) :
    driveAll percent (o :: rest) f =
      (.error fault, (o.drive percent f).2.1 :: rest, (o.drive percent f).2.2) := by
  rw [driveAll]
  generalize o.drive percent f = done at h ⊢
  obtain ⟨answered, after, files⟩ := done
  obtain rfl : answered = .error fault := h
  rfl

/-- Outputs that work are driven, and then the others in the files that are left. -/
theorem driveAll_append (hworks : ∀ o ∈ before, o.answer percent f = .ok ())
    (hperiods : ∀ o ∈ before, o.periodNs = periodNs) (rest : List FanOutlet) :
    ∃ driven g, driveAll percent (before ++ rest) f =
        ((driveAll percent rest g).1, driven ++ (driveAll percent rest g).2.1,
          (driveAll percent rest g).2.2) ∧
      driven.length = before.length ∧ Alike f g ∧
      Written (before.flatMap FanOutlet.attributeFiles) f g ∧
      (∀ o ∈ before, o.HasDuty percent g) ∧
      ∀ o : FanOutlet, o.periodNs = periodNs → o.HasDuty percent f → o.HasDuty percent g := by
  induction before generalizing f with
  | nil =>
    exact ⟨[], f, rfl, rfl, ⟨fun _ => Iff.rfl, fun _ => rfl, fun _ => rfl⟩, .refl _ _, nofun,
      fun _ _ h => h⟩
  | cons o before ih =>
    obtain ⟨ho, hbefore⟩ := List.forall_mem_cons.1 hworks
    obtain ⟨hperiod, hperiods⟩ := List.forall_mem_cons.1 hperiods
    have hwritten := o.written_drive percent f
    have halike := FanOutlet.alike_of_written hwritten
    have hstill : ∀ other ∈ before, other.answer percent (o.drive percent f).2.2 = .ok () :=
      fun other hmem => (FanOutlet.answer_congr halike other percent).trans (hbefore other hmem)
    obtain ⟨driven, g, hdriven, hlength, hnext, hmore, hduties, hkeeps⟩ := ih hstill hperiods
    have hanswer : (o.drive percent f).1 = .ok () := (o.drive_spec percent f).1.trans ho
    refine ⟨(o.drive percent f).2.1 :: driven, g, ?_, congrArg (· + 1) hlength,
      halike.trans hnext, ?_, ?_, ?_⟩
    · rw [List.cons_append, driveAll_cons_of_ok hanswer, hdriven]
      rfl
    · rw [List.flatMap_cons]
      exact (hwritten.mono (List.subset_append_left _ _)).trans
        (hmore.mono (List.subset_append_right _ _))
    · rintro other (_ | ⟨_, hmem⟩)
      · exact hkeeps o hperiod (FanOutlet.hasDuty_of_answer ho)
      · exact hduties other hmem
    · intro other hother hduty
      exact hkeeps other hother (hduty.drive_other (hperiod.trans hother.symm))

theorem exists_first_failure {outlets : List FanOutlet}
    (h : ¬∀ o ∈ outlets, o.answer percent f = .ok ()) :
    ∃ before failed rest fault, outlets = before ++ failed :: rest ∧
      (∀ o ∈ before, o.answer percent f = .ok ()) ∧ failed.answer percent f = .error fault := by
  induction outlets with
  | nil => exact absurd nofun h
  | cons o outlets ih =>
    cases ho : o.answer percent f with
    | error fault => exact ⟨[], o, outlets, fault, rfl, nofun, ho⟩
    | ok u =>
      have hrest : ¬∀ o ∈ outlets, o.answer percent f = .ok () :=
        fun hall => h (List.forall_mem_cons.2 ⟨ho, hall⟩)
      obtain ⟨before, failed, rest, fault, rfl, hbefore, hfailed⟩ := ih hrest
      exact ⟨o :: before, failed, rest, fault, rfl, List.forall_mem_cons.2 ⟨ho, hbefore⟩, hfailed⟩

theorem driveAll_of_works {outlets : List FanOutlet}
    (hworks : ∀ o ∈ outlets, o.answer percent f = .ok ())
    (hperiods : ∀ o ∈ outlets, o.periodNs = periodNs) :
    (driveAll percent outlets f).1 = .ok () ∧
      ∀ o ∈ outlets, o.HasDuty percent (driveAll percent outlets f).2.2 := by
  obtain ⟨driven, g, hall, _, _, _, hduties, _⟩ := driveAll_append hworks hperiods []
  rw [List.append_nil] at hall
  rw [hall]
  exact ⟨rfl, hduties⟩

theorem driveAll_of_failed (percent : UInt8) (rest : List FanOutlet) {failed : FanOutlet}
    {fault : OutletFault} (hworks : ∀ o ∈ before, o.answer percent f = .ok ())
    (hperiods : ∀ o ∈ before ++ [failed], o.periodNs = periodNs)
    (hfailed : failed.answer percent f = .error fault) :
    let driven := driveAll percent (before ++ failed :: rest) f
    driven.1 = .error fault ∧ driven.2.1.drop (before.length + 1) = rest ∧
      Written ((failed :: before).flatMap FanOutlet.attributeFiles) f driven.2.2 ∧
      ∀ o ∈ before, o.HasDuty percent driven.2.2 := by
  intro driven
  obtain ⟨hbefore, hlast⟩ := List.forall_mem_append.1 hperiods
  obtain ⟨outlets, g, hall, hlength, halike, hwritten, hduties, _⟩ :=
    driveAll_append hworks hbefore (failed :: rest)
  have hanswer : (failed.drive percent g).1 = .error fault :=
    (failed.drive_spec percent g).1.trans
      ((FanOutlet.answer_congr halike failed percent).trans hfailed)
  have hdriven : driven = (.error fault, outlets ++ (failed.drive percent g).2.1 :: rest,
      (failed.drive percent g).2.2) := by
    rw [driveAll_cons_of_error hanswer] at hall
    exact hall
  rw [hdriven]
  refine ⟨rfl, ?_, ?_, ?_⟩
  · rw [List.append_cons]
    exact List.drop_left' (by simp [hlength])
  · rw [List.flatMap_cons]
    exact (hwritten.mono (List.subset_append_right _ _)).trans
      ((failed.written_drive percent g).mono (List.subset_append_left _ _))
  · intro o hmem
    refine (hduties o hmem).drive_other ?_
    exact (hlast failed (List.mem_singleton_self _)).trans (hbefore o hmem).symm

/-- The group after it was driven any number of times, with any files around it. -/
inductive Driven (chips : List UInt32) (periodNs : UInt32) : FanGroup → Prop where
  | start : Driven chips periodNs (FanGroup.start chips periodNs)
  | drive {b : FanGroup} (h : Driven chips periodNs b) (percent : UInt8) (f : Files) :
    Driven chips periodNs (b.drive percent f).2.1

theorem outlets_driveAll (percent : UInt8) (outlets : List FanOutlet) (f : Files) :
    (driveAll percent outlets f).2.1.map (fun o => (o.chip, o.periodNs)) =
      outlets.map fun o => (o.chip, o.periodNs) := by
  induction outlets generalizing f with
  | nil => rfl
  | cons o rest ih =>
    obtain ⟨_, ⟨ready, hsame⟩, _⟩ := o.drive_spec percent f
    have hfirst : ((o.drive percent f).2.1.chip, (o.drive percent f).2.1.periodNs) =
        (o.chip, o.periodNs) := by
      rw [hsame]
    cases hanswer : (o.drive percent f).1 with
    | error fault =>
      rw [driveAll_cons_of_error hanswer]
      exact congrArg (· :: _) hfirst
    | ok u =>
      rw [driveAll_cons_of_ok hanswer]
      exact congrArg₂ (· :: ·) hfirst (ih _)

theorem Driven.outlets_eq {chips : List UInt32} {b : FanGroup} (h : Driven chips periodNs b) :
    b.outlets.map (fun o => (o.chip, o.periodNs)) = chips.map fun chip => (chip, periodNs) := by
  induction h with
  | start => simp [FanGroup.start, Function.comp_def]
  | drive h percent f ih => exact (outlets_driveAll percent _ f).trans ih

theorem Driven.periodNs_eq {chips : List UInt32} {b : FanGroup} (h : Driven chips periodNs b) :
    ∀ o ∈ b.outlets, o.periodNs = periodNs := by
  intro o hmem
  have hpair : (o.chip, o.periodNs) ∈ chips.map fun chip => (chip, periodNs) := by
    rw [← h.outlets_eq]
    exact List.mem_map_of_mem hmem
  obtain ⟨_, _, heq⟩ := List.mem_map.1 hpair
  exact (congrArg Prod.snd heq).symm

/-- The group takes a duty exactly when each of its outputs by itself does, and then all have it.
When some do not, the answer is that of the first of them, every output before it has the duty, and
the outputs after it are left as they were, with their files. -/
theorem Driven.drive_outlets {chips : List UInt32} {b : FanGroup} (h : Driven chips periodNs b)
    (percent : UInt8) (f : Files) :
    let works (o : FanOutlet) := (o.drive percent f).1 = .ok ()
    let has (files : Files) (o : FanOutlet) := ∃ time, inactiveTime? periodNs percent = some time ∧
      files.node? (o.channelFile "duty_cycle") = some (.file (toString time.toNat))
    let driven := b.drive percent f
    (driven.1 = .ok () ↔ ∀ o ∈ b.outlets, works o) ∧
      (driven.1 = .ok () → ∀ o ∈ b.outlets, has driven.2.2 o) ∧
      ∀ before failed rest, b.outlets = before ++ failed :: rest → (∀ o ∈ before, works o) →
        ¬works failed →
          driven.1 = (failed.drive percent f).1 ∧ (∀ o ∈ before, has driven.2.2 o) ∧
            driven.2.1.outlets.drop (before.length + 1) = rest ∧
            ∀ path : NodePath, (∀ o ∈ failed :: before, path.head? ≠ some o.directory) →
              driven.2.2.node? path = f.node? path := by
  intro works has driven
  have hworks (o : FanOutlet) : works o ↔ o.answer percent f = .ok () := by
    show (o.drive percent f).1 = .ok () ↔ _
    rw [(o.drive_spec percent f).1]
  have hhas (files : Files) {o : FanOutlet} (ho : o.periodNs = periodNs)
      (hduty : o.HasDuty percent files) : has files o := by
    rw [FanOutlet.HasDuty, ho] at hduty
    exact hduty
  have hanswer : driven.1 = (driveAll percent b.outlets f).1 := rfl
  have houtlets : driven.2.1.outlets = (driveAll percent b.outlets f).2.1 := rfl
  have hfiles : driven.2.2 = (driveAll percent b.outlets f).2.2 := rfl
  have hperiods := h.periodNs_eq
  have hall (hok : ∀ o ∈ b.outlets, works o) :
      driven.1 = .ok () ∧ ∀ o ∈ b.outlets, o.HasDuty percent driven.2.2 := by
    rw [hanswer, hfiles]
    exact driveAll_of_works (fun o hmem => (hworks o).1 (hok o hmem)) hperiods
  have hok : driven.1 = .ok () → ∀ o ∈ b.outlets, works o := by
    intro hdriven
    by_contra hsome
    simp only [hworks] at hsome
    obtain ⟨before, failed, rest, fault, hsplit, hbefore, hfailed⟩ := exists_first_failure hsome
    rw [hsplit, List.append_cons] at hperiods
    have herror := (driveAll_of_failed percent rest hbefore
      (List.forall_mem_append.1 hperiods).1 hfailed).1
    rw [← hsplit, ← hanswer, hdriven] at herror
    cases herror
  refine ⟨⟨hok, fun h => (hall h).1⟩, ?_, ?_⟩
  · intro hdriven o hmem
    exact hhas _ (hperiods o hmem) ((hall (hok hdriven)).2 o hmem)
  · intro before failed rest hsplit hbefore hfailed
    simp only [hworks] at hbefore hfailed
    rw [hsplit, List.append_cons] at hperiods
    obtain ⟨hperiods, _⟩ := List.forall_mem_append.1 hperiods
    cases hfault : failed.answer percent f with
    | ok u => exact absurd hfault hfailed
    | error fault =>
      obtain ⟨herror, hdrop, hwritten, hduties⟩ :=
        driveAll_of_failed percent rest hbefore hperiods hfault
      rw [← hsplit] at herror hdrop hwritten hduties
      rw [hanswer, houtlets, hfiles, (failed.drive_spec percent f).1, hfault]
      refine ⟨herror, fun o hmem => ?_, hdrop, fun path hpath => hwritten.others path ?_⟩
      · exact hhas _ (hperiods o (List.mem_append_left _ hmem)) (hduties o hmem)
      · intro hmem
        obtain ⟨o, ho, hattribute⟩ := List.mem_flatMap.1 hmem
        refine hpath o ho ?_
        rcases FanOutlet.mem_attributeFiles hattribute with rfl | ⟨name, rfl⟩
        · rfl
        · rfl

/-- The channel of the second of two chips alone. -/
def secondChannel : Files := Files.empty.makeDirectories ["pwmchip1", "pwm0"]

/-- The second output works and yet gets no duty, since the first one fails. -/
theorem drive_outlets_of_missing_channel :
    let driven := (start [0, 1] 100000).drive 70 secondChannel
    driven.1 = (FanOutlet.drive ⟨0, 100000, false⟩ 70 secondChannel).1 ∧
      (FanOutlet.drive ⟨1, 100000, false⟩ 70 secondChannel).1 = .ok () ∧
      driven.2.2.node? ["pwmchip1", "pwm0", "duty_cycle"] = none := by
  have hfails : (FanOutlet.drive ⟨0, 100000, false⟩ 70 secondChannel).1 ≠ .ok () := by
    decide +kernel
  have hworks : (FanOutlet.drive ⟨1, 100000, false⟩ 70 secondChannel).1 = .ok () := by
    decide +kernel
  have hnone : secondChannel.node? ["pwmchip1", "pwm0", "duty_cycle"] = none := by decide +kernel
  have hstart : Driven [0, 1] 100000 (start [0, 1] 100000) := .start
  obtain ⟨_, _, hfirst⟩ := Driven.drive_outlets hstart 70 secondChannel
  obtain ⟨hanswer, _, _, hsame⟩ := hfirst [] ⟨0, 100000, false⟩ [⟨1, 100000, false⟩] rfl nofun
    hfails
  refine ⟨hanswer, hworks, (hsame _ ?_).trans hnone⟩
  decide +kernel

end FanGroup

end HashBoard.Device
