import PixelBlocks.Proofs.Session
import PixelBlocks.Proofs.Settings

/-!
# Settings are checked once

Setters check their arguments, and layers are checked when instances are made for them. So the
defaults of a session are acceptable after every step, and every instance of a session has an
acceptable level, which no call changes.
-/

namespace PixelBlocks

open Outcome

namespace Compressor

/-- The level of an instance for chunks. -/
def zstdLevel : Compressor → UInt8
  | .flat compressor => compressor.zstdLevel
  | .deep compressor => compressor.zstdLevel

/-- Forgetting buffers keeps the level. -/
@[simp] theorem zstdLevel_clear (compressor : Compressor) :
    compressor.clear.zstdLevel = compressor.zstdLevel := by
  cases compressor <;> rfl

/-- No call that an instance with an acceptable level performs finds fault with a setting. -/
theorem settingsAccepted_perform {coders : Coders} {schedule : Schedule}
    {compressor after : Compressor} {call : Call} {answer : Outcome Answer}
    (level : 1 ≤ compressor.zstdLevel ∧ compressor.zstdLevel ≤ 9)
    (performed : compressor.perform coders schedule call = some (answer, after)) :
    SettingsAccepted answer := by
  cases compressor with
  | flat compressor =>
    cases call with
    | compress name raw place =>
      cases performed
      exact (compressor.settingsAccepted_compress coders level raw place).map
    | uncompress name stored place =>
      cases performed
      exact (compressor.settingsAccepted_uncompress coders stored place).map
    | _ => cases performed
  | deep compressor =>
    cases call with
    | compressSamples name samples offsets =>
      cases performed
      exact (compressor.settingsAccepted_compress coders schedule level samples offsets).map
    | uncompressSamples name stored offsets =>
      cases performed
      exact (compressor.settingsAccepted_uncompress coders schedule stored offsets).map
    | compressTable name offsets =>
      cases performed
      exact (compressor.settingsAccepted_compressTable coders level offsets).map
    | uncompressTable name stored pixels =>
      cases performed
      exact (compressor.settingsAccepted_uncompressTable coders stored pixels).map
    | _ => cases performed

end Compressor

/-- The defaults when an instance was made. -/
def Origin.defaults : Origin → Defaults
  | .flat defaults _ => defaults
  | .deep defaults _ => defaults

/-- An instance that is made with acceptable defaults has an acceptable level. -/
theorem Origin.level_of_build {origin : Origin} {compressor : Compressor}
    (acceptable : origin.defaults.Valid) (built : origin.build = .ok compressor) :
    1 ≤ compressor.zstdLevel ∧ compressor.zstdLevel ≤ 9 := by
  cases origin with
  | flat defaults layer =>
    obtain ⟨made, found, rfl⟩ := Outcome.map_eq_ok_iff.mp built
    obtain ⟨⟨⟩, valid, made⟩ := Outcome.bind_eq_ok_iff.mp found
    obtain ⟨-, same⟩ := Outcome.guard_eq_ok_iff.mp made
    cases same
    exact (Layer.validate_eq_ok_iff.mp valid).effectiveZstdLevel_bounds acceptable
  | deep defaults layer =>
    obtain ⟨made, found, rfl⟩ := Outcome.map_eq_ok_iff.mp built
    obtain ⟨⟨⟩, valid, made⟩ := Outcome.bind_eq_ok_iff.mp found
    obtain ⟨-, supported⟩ := Outcome.guard_eq_ok_iff.mp made
    obtain ⟨-, same⟩ := Outcome.guard_eq_ok_iff.mp supported
    cases same
    exact (Layer.validate_eq_ok_iff.mp valid).effectiveZstdLevel_bounds acceptable

namespace Event

/-- The level of an accepted call that sets the zip level. -/
def zip? : Event → Option Int32
  | ⟨_, .setZip level, .ok _⟩ => some level
  | _ => none

/-- The level of an accepted call that sets the zstandard level. -/
def zstd? : Event → Option Int32
  | ⟨_, .setZstd level, .ok _⟩ => some level
  | _ => none

/-- The quality of an accepted call that sets the quality. -/
def quality? : Event → Option Quality
  | ⟨_, .setQuality quality, .ok _⟩ => some quality
  | _ => none

end Event

/-- Whether the argument of a setter is acceptable. Other calls have no such argument. -/
def Call.acceptable? : Call → Option Bool
  | .setZip level => some (decide (0 ≤ level ∧ level ≤ 9))
  | .setZstd level => some (decide (1 ≤ level ∧ level ≤ 9))
  | .setQuality quality => some (quality.isFinite && Single.isNonnegative quality)
  | _ => none

namespace Defaults

/-- Each default is the last accepted argument for it, or the initial one. The last event comes
first. -/
structure Remembers (events : List Event) (defaults : Defaults) : Prop where
  zip : (defaults.zip.toNat : Int) = ((events.findSome? Event.zip?).getD 4).toInt
  zstd : (defaults.zstd.toNat : Int) = ((events.findSome? Event.zstd?).getD 5).toInt
  quality : defaults.quality = (events.findSome? Event.quality?).getD ⟨0x42340000⟩

variable {defaults changed : Defaults}

/-- An accepted zip level is stored, and nothing else changes. -/
theorem setZip_eq_ok_iff {level : Int32} :
    defaults.setZip level = .ok changed ↔
      (0 ≤ level ∧ level ≤ 9) ∧ { defaults with zip := level.toInt.toNat.toUInt8 } = changed := by
  unfold setZip
  by_cases within : 0 ≤ level ∧ level ≤ 9 <;> simp [within]

/-- An accepted zstandard level is stored, and nothing else changes. -/
theorem setZstd_eq_ok_iff {level : Int32} :
    defaults.setZstd level = .ok changed ↔
      (1 ≤ level ∧ level ≤ 9) ∧ { defaults with zstd := level.toInt.toNat.toUInt8 } = changed := by
  unfold setZstd validateZstd
  by_cases within : 1 ≤ level ∧ level ≤ 9 <;> simp [within]

/-- An accepted quality is stored, and nothing else changes. -/
theorem setQuality_eq_ok_iff {quality : Quality} :
    defaults.setQuality quality = .ok changed ↔
      Quality.isAcceptable quality = true ∧ { defaults with quality } = changed := by
  unfold setQuality validateQuality
  by_cases acceptable : Quality.isAcceptable quality = true <;> simp [acceptable]

end Defaults

namespace Session

/-- All defaults are acceptable, and all instances have acceptable levels. -/
structure Sound (session : Session) : Prop where
  defaults : session.defaults.Valid
  levels : ∀ name compressor, session.find? name = some compressor →
    1 ≤ compressor.zstdLevel ∧ compressor.zstdLevel ≤ 9

section Steps

variable {coders : Coders} {schedule : Schedule} {events : List Event}
variable {session next : Session} {call : Call} {answer : Outcome Answer} {name : String}

/-- Accepted changes are taken over. -/
theorem adopt_ok {changed : Outcome Defaults} {defaults : Defaults}
    (accepted : changed = .ok defaults) :
    session.adopt changed = (.ok .done, { session with defaults }) := by
  rw [accepted]
  rfl

/-- Refused changes leave everything as it was. -/
theorem adopt_error {changed : Outcome Defaults} {fault : Fault}
    (refused : changed = .error fault) : session.adopt changed = (.error fault, session) := by
  rw [refused]
  rfl

/-- A setter accepts what is acceptable. -/
theorem step_acceptable (acceptable : call.acceptable? = some true) :
    ∃ next, session.step coders schedule call = some (.ok .done, next) := by
  cases call with
  | setZip level =>
    have within := of_decide_eq_true (Option.some.inj acceptable)
    exact ⟨_, congrArg some (adopt_ok (Defaults.setZip_eq_ok_iff.mpr ⟨within, rfl⟩))⟩
  | setZstd level =>
    have within := of_decide_eq_true (Option.some.inj acceptable)
    exact ⟨_, congrArg some (adopt_ok (Defaults.setZstd_eq_ok_iff.mpr ⟨within, rfl⟩))⟩
  | setQuality quality =>
    have passed := Option.some.inj acceptable
    exact ⟨_, congrArg some (adopt_ok (Defaults.setQuality_eq_ok_iff.mpr ⟨passed, rfl⟩))⟩
  | _ => cases acceptable

/-- A setter refuses all else, and then nothing changes. -/
theorem step_unacceptable (unacceptable : call.acceptable? = some false) :
    ∃ cause,
      session.step coders schedule call = some (.error (.configuration cause), session) := by
  cases call with
  | setZip level =>
    have outside := of_decide_eq_false (Option.some.inj unacceptable)
    have refused : session.defaults.setZip level = .error (.configuration (.zipLevel level)) :=
      if_neg outside
    exact ⟨_, congrArg some (adopt_error refused)⟩
  | setZstd level =>
    have outside := of_decide_eq_false (Option.some.inj unacceptable)
    have refused : session.defaults.setZstd level = .error (.configuration (.zstdLevel level)) := by
      rw [Defaults.setZstd, Defaults.validateZstd, if_neg outside]
      rfl
    exact ⟨_, congrArg some (adopt_error refused)⟩
  | setQuality quality =>
    have failed : ¬ Quality.isAcceptable quality = true :=
      Bool.eq_false_iff.mp (Option.some.inj unacceptable)
    have refused : session.defaults.setQuality quality =
        .error (.configuration (.quality quality)) := by
      rw [Defaults.setQuality, Defaults.validateQuality, if_neg failed]
      rfl
    exact ⟨_, congrArg some (adopt_error refused)⟩
  | _ => cases unacceptable

/-- A setter changes the defaults or nothing. -/
theorem adopt_cases {changed : Outcome Defaults}
    (adopted : session.adopt changed = (answer, next)) :
    (∃ defaults, changed = .ok defaults ∧ answer = .ok .done ∧
        next = { session with defaults }) ∨
      ∃ fault, changed = .error fault ∧ answer = .error fault ∧ next = session := by
  cases changed with
  | ok defaults =>
    cases adopted
    exact .inl ⟨defaults, rfl, rfl, rfl⟩
  | error fault =>
    cases adopted
    exact .inr ⟨fault, rfl, rfl, rfl⟩

/-- A new instance is kept, if it could be made. -/
theorem install_cases {made : String} {origin : Origin}
    (installed : session.install made origin.build = (answer, next)) :
    next = session ∨
      ∃ compressor, next = session.keep made compressor ∧ origin.build = .ok compressor := by
  cases built : origin.build with
  | error fault =>
    rw [built] at installed
    cases installed
    exact .inl rfl
  | ok compressor =>
    rw [built] at installed
    cases installed
    exact .inr ⟨compressor, rfl, rfl⟩

/-- A call that is no setter leaves the session, or keeps an instance: one that is made of
another by changing its buffers, or a new one. -/
theorem step_cases (unset : call.acceptable? = none)
    (stepped : session.step coders schedule call = some (answer, next)) :
    next = session ∨ ∃ name compressor, next = session.keep name compressor ∧
      ((∃ source kept, session.find? source = some kept ∧ compressor.clear = kept.clear) ∨
        ∃ origin : Origin, origin.defaults = session.defaults ∧ origin.build = .ok compressor) := by
  cases works : call.worksOn? with
  | some used =>
    rw [step_eq_perform works] at stepped
    obtain ⟨compressor, found, performed⟩ := Option.bind_eq_some_iff.mp stepped
    obtain ⟨⟨outcome, after⟩, called, same⟩ := Option.map_eq_some_iff.mp performed
    cases same
    exact .inr ⟨used, after, rfl, .inl ⟨used, compressor, found, Compressor.clear_perform called⟩⟩
  | none =>
    cases call with
    | setZip | setZstd | setQuality => cases unset
    | buildFlat made layer =>
      have installed : session.install made (Origin.flat session.defaults layer).build =
        (answer, next) := Option.some.inj stepped
      rcases install_cases installed with same | ⟨compressor, same, built⟩
      · exact .inl same
      · exact .inr ⟨made, compressor, same, .inr ⟨_, rfl, built⟩⟩
    | buildDeep made layer =>
      have installed : session.install made (Origin.deep session.defaults layer).build =
        (answer, next) := Option.some.inj stepped
      rcases install_cases installed with same | ⟨compressor, same, built⟩
      · exact .inl same
      · exact .inr ⟨made, compressor, same, .inr ⟨_, rfl, built⟩⟩
    | copy made source =>
      obtain ⟨compressor, found, same⟩ := Option.map_eq_some_iff.mp stepped
      cases same
      exact .inr ⟨made, compressor, rfl, .inl ⟨source, compressor, found, rfl⟩⟩
    | clear used =>
      obtain ⟨compressor, found, same⟩ := Option.map_eq_some_iff.mp stepped
      have kept : next = session.keep used compressor.clear := by
        cases compressor <;> cases same <;> rfl
      exact .inr ⟨used, _, kept, .inl ⟨used, compressor, found, compressor.clear_clear⟩⟩
    | compress | uncompress | compressSamples | uncompressSamples | compressTable
      | uncompressTable => cases works

/-- Calls that are no setters keep the defaults. -/
theorem defaults_step (unset : call.acceptable? = none)
    (stepped : session.step coders schedule call = some (answer, next)) :
    next.defaults = session.defaults := by
  rcases step_cases unset stepped with rfl | ⟨name, compressor, rfl, -⟩
  · rfl
  · rfl

/-- Every step keeps that the defaults are the last accepted arguments. -/
theorem remembers_step (remembers : session.defaults.Remembers events)
    (stepped : session.step coders schedule call = some (answer, next)) :
    next.defaults.Remembers (⟨session.defaults, call, answer⟩ :: events) := by
  cases call with
  | setZip level =>
    rcases adopt_cases (Option.some.inj stepped) with ⟨_, accepted, rfl, rfl⟩ | ⟨_, -, rfl, rfl⟩
    · obtain ⟨⟨low, high⟩, rfl⟩ := Defaults.setZip_eq_ok_iff.mp accepted
      exact ⟨Defaults.toNat_toUInt8 low high, remembers.zstd, remembers.quality⟩
    · exact ⟨remembers.zip, remembers.zstd, remembers.quality⟩
  | setZstd level =>
    rcases adopt_cases (Option.some.inj stepped) with ⟨_, accepted, rfl, rfl⟩ | ⟨_, -, rfl, rfl⟩
    · obtain ⟨⟨low, high⟩, rfl⟩ := Defaults.setZstd_eq_ok_iff.mp accepted
      have positive : 0 ≤ level := Int32.le_trans (by decide) low
      exact ⟨remembers.zip, Defaults.toNat_toUInt8 positive high, remembers.quality⟩
    · exact ⟨remembers.zip, remembers.zstd, remembers.quality⟩
  | setQuality quality =>
    rcases adopt_cases (Option.some.inj stepped) with ⟨_, accepted, rfl, rfl⟩ | ⟨_, -, rfl, rfl⟩
    · obtain ⟨-, rfl⟩ := Defaults.setQuality_eq_ok_iff.mp accepted
      exact ⟨remembers.zip, remembers.zstd, rfl⟩
    · exact ⟨remembers.zip, remembers.zstd, remembers.quality⟩
  | _ =>
    rw [defaults_step rfl stepped]
    exact ⟨remembers.zip, remembers.zstd, remembers.quality⟩

/-- Keeping an instance with an acceptable level is sound. -/
theorem Sound.keep (sound : session.Sound) {compressor : Compressor}
    (level : 1 ≤ compressor.zstdLevel ∧ compressor.zstdLevel ≤ 9) :
    (session.keep name compressor).Sound := by
  refine ⟨sound.defaults, ?_⟩
  intro other kept found
  rw [find?_keep] at found
  split at found
  · cases found
    exact level
  · exact sound.levels other kept found

/-- Changing a default to an acceptable one is sound. -/
theorem Sound.adopt (sound : session.Sound) {changed : Outcome Defaults}
    (acceptable : ∀ defaults, changed = .ok defaults → defaults.Valid)
    (adopted : session.adopt changed = (answer, next)) : next.Sound := by
  rcases adopt_cases adopted with ⟨defaults, accepted, -, rfl⟩ | ⟨_, -, -, rfl⟩
  · exact ⟨acceptable defaults accepted, sound.levels⟩
  · exact sound

/-- Every step is sound. -/
theorem Sound.step (sound : session.Sound)
    (stepped : session.step coders schedule call = some (answer, next)) : next.Sound := by
  -- setters change nothing but defaults, and other calls nothing but one instance
  cases set : call.acceptable? with
  | none =>
    rcases step_cases set stepped with rfl | ⟨name, compressor, rfl, origin⟩
    · exact sound
    · apply sound.keep
      rcases origin with ⟨source, kept, found, same⟩ | ⟨origin, fresh, built⟩
      · rw [← compressor.zstdLevel_clear, same, kept.zstdLevel_clear]
        exact sound.levels source kept found
      · exact origin.level_of_build (fresh ▸ sound.defaults) built
  | some acceptable =>
    cases call with
    | setZip level =>
      apply sound.adopt _ (Option.some.inj stepped)
      intro changed accepted
      exact sound.defaults.setZip accepted
    | setZstd level =>
      apply sound.adopt _ (Option.some.inj stepped)
      intro changed accepted
      exact sound.defaults.setZstd accepted
    | setQuality quality =>
      apply sound.adopt _ (Option.some.inj stepped)
      intro changed accepted
      exact sound.defaults.setQuality accepted
    | _ => cases set

/-- So a whole session is sound, and its defaults are the last accepted arguments. -/
theorem After.sound (after : After coders events session) :
    session.Sound ∧ session.defaults.Remembers events := by
  induction after with
  | start =>
    constructor
    · refine ⟨⟨by decide, by decide, by decide⟩, ?_⟩
      intro name compressor found
      cases found
    · exact ⟨rfl, rfl, rfl⟩
  | step _ stepped inductionHypothesis =>
    obtain ⟨sound, remembers⟩ := inductionHypothesis
    exact ⟨sound.step stepped, remembers_step remembers stepped⟩

/-- A call on an instance of a sound session finds no fault with a setting. -/
theorem Sound.settingsAccepted_step (sound : session.Sound) (works : call.worksOn? = some name)
    (stepped : session.step coders schedule call = some (answer, next)) :
    SettingsAccepted answer := by
  rw [step_eq_perform works] at stepped
  obtain ⟨compressor, found, performed⟩ := Option.bind_eq_some_iff.mp stepped
  obtain ⟨⟨outcome, after⟩, called, same⟩ := Option.map_eq_some_iff.mp performed
  cases same
  exact Compressor.settingsAccepted_perform (sound.levels name compressor found) called

end Steps

/-- Whatever a process did, each default is the last argument that was accepted for it, or the
initial one, and it lies in its range. A setter accepts what lies in this range, and refuses all
else as a wrong setting without changing anything. No call that works on an instance fails for a
wrong setting, for whatever layer the instance was made, whatever its arguments are, and
whatever happened since. -/
theorem settings_checked_once {coders : Coders} {events : List Event} {session : Session}
    (after : After coders events session) :
    ((session.defaults.zip.toNat : Int) = ((events.findSome? Event.zip?).getD 4).toInt ∧
      (session.defaults.zstd.toNat : Int) = ((events.findSome? Event.zstd?).getD 5).toInt ∧
      session.defaults.quality = (events.findSome? Event.quality?).getD ⟨0x42340000⟩) ∧
    (session.defaults.zip ≤ 9 ∧ (1 ≤ session.defaults.zstd ∧ session.defaults.zstd ≤ 9) ∧
      session.defaults.quality.isFinite = true ∧
        Single.isNonnegative session.defaults.quality = true) ∧
    (∀ schedule call, call.acceptable? = some true →
      ∃ next, session.step coders schedule call = some (.ok .done, next)) ∧
    (∀ schedule call, call.acceptable? = some false →
      ∃ cause,
        session.step coders schedule call = some (.error (.configuration cause), session)) ∧
    (∀ schedule call name answer next, call.worksOn? = some name →
      session.step coders schedule call = some (answer, next) →
        ∀ cause, answer ≠ .error (.configuration cause)) := by
  obtain ⟨sound, remembers⟩ := after.sound
  have quality := Bool.and_eq_true_iff.mp sound.defaults.quality
  refine ⟨⟨remembers.zip, remembers.zstd, remembers.quality⟩,
    ⟨sound.defaults.zip, sound.defaults.zstd, quality⟩, ?_, ?_, ?_⟩
  · intro schedule call acceptable
    exact step_acceptable acceptable
  · intro schedule call unacceptable
    exact step_unacceptable unacceptable
  · intro schedule call name answer next works stepped
    exact sound.settingsAccepted_step works stepped

/-- An instance for tiles is made and the zip level is lowered. A zstandard level and a quality
that is no number are refused. -/
def settingEvents : List Event := [
  ⟨{ Defaults.initial with zip := 0 }, .setQuality ⟨0x7fc00000⟩,
    .error (.configuration (.quality ⟨0x7fc00000⟩))⟩,
  ⟨{ Defaults.initial with zip := 0 }, .setZstd 10, .error (.configuration (.zstdLevel 10))⟩,
  ⟨.initial, .setZip 0, .ok .done⟩,
  ⟨.initial, .buildFlat "tiles" FlatCompressor.tiledLayer, .ok .done⟩]

/-- The session after these events. -/
def settingSession : Session where
  defaults := { Defaults.initial with zip := 0 }
  compressors := [("tiles", .flat { FlatCompressor.tileWriter with buffers := .empty })]

/-- The lowered level is the one in effect, and no tile fails for a wrong setting. -/
theorem settings_checked_once_tile :
    (settingSession.defaults.zip.toNat : Int) =
      ((settingEvents.findSome? Event.zip?).getD 4).toInt ∧
    ∀ schedule raw place answer next,
      settingSession.step FlatCompressor.tileRecording.coders schedule
        (.compress "tiles" raw place) = some (answer, next) →
          ∀ cause, answer ≠ .error (.configuration cause) := by
  have made : start.step FlatCompressor.tileRecording.coders .inOrder
      (.buildFlat "tiles" FlatCompressor.tiledLayer) =
        some (.ok .done, { settingSession with defaults := .initial }) := rfl
  have lowered : Session.step FlatCompressor.tileRecording.coders .inOrder
      { settingSession with defaults := .initial } (.setZip 0) =
        some (.ok .done, settingSession) := rfl
  have refused : settingSession.step FlatCompressor.tileRecording.coders .inOrder (.setZstd 10) =
      some (.error (.configuration (.zstdLevel 10)), settingSession) := rfl
  have refusedQuality : settingSession.step FlatCompressor.tileRecording.coders .inOrder
      (.setQuality ⟨0x7fc00000⟩) =
        some (.error (.configuration (.quality ⟨0x7fc00000⟩)), settingSession) := rfl
  have after : After FlatCompressor.tileRecording.coders settingEvents settingSession :=
    .step (.step (.step (.step .start made) lowered) refused) refusedQuality
  obtain ⟨⟨zip, -⟩, -, -, -, accepted⟩ := settings_checked_once after
  refine ⟨zip, ?_⟩
  intro schedule raw place answer next stepped
  exact accepted schedule _ "tiles" answer next rfl stepped

end Session

end PixelBlocks
