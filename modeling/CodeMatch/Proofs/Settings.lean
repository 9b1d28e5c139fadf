import CodeMatch.Proofs.Success
import CodeMatch.Proofs.Text.Integers
import CodeMatch.Settings

/-!
# The environments that settings are loaded from

* `Names given t`          the text `given` is the name of the threshold `t`, up to blanks and letter case;
* `Stands default given n`   the variable set to `given` stands for the number `n`: it is not set or blank, and
                           `n` is the default, or it holds a numeral of `n`, which is at least 1;
* `Usable env v`           what is asked of the variable `v`;
* `FirstUnusable env v`    `v` is the first one that does not have it;
* `loadThreshold_eq_ok_iff`, `loadInteger_eq_ok_iff`   one variable, read by these rules;
* `load_eq_ok_iff`         all of them, each for its own field;
* `load_accepts_exactly`   the environments with settings, and the variable that is named in all others.
-/

namespace CodeMatch.Settings

/-- a variable that is not set counts as `INFO` -/
def Names : Option String → Threshold → Prop
  | none, t => t = .info
  | some s, t => String.ofList (Text.upper (Text.trim Text.isBlank s.toList)) = t.name

inductive Stands (default : Int) : Option String → Int → Prop
  | unset : Stands default none default
  | blank {s : String} (h : Text.trim Text.isBlank s.toList = []) : Stands default (some s) default
  | numeral {s : String} {n : Int}
      (h : Text.IsInteger Text.decimal? Text.longestNumeral (Text.trim Text.isBlank s.toList) n)
      (hn : 1 ≤ n) : Stands default (some s) n

/-! ## one variable -/

section
variable {env : Environment} {v : Variable} {f : Fault}

theorem ofName?_eq_some_iff {s : String} {t : Threshold} : Threshold.ofName? s = some t ↔ s = t.name := by
  constructor
  · intro h
    have hname := List.find?_some h
    exact (of_decide_eq_true hname).symm
  · rintro rfl
    exact Threshold.ofName?_name t

theorem loadThreshold_eq_ok_iff {t : Threshold} : loadThreshold env v .info = .ok t ↔ Names (env v) t := by
  unfold loadThreshold
  cases env v with
  | none => exact ⟨fun h => (Except.ok.inj h).symm, fun h => congrArg Except.ok h.symm⟩
  | some s =>
    rw [Names, ← ofName?_eq_some_iff]
    dsimp only
    split
    case h_1 u hu => simp [hu]
    case h_2 hu => simp [hu]

theorem integer?_eq_some_iff {s : List Char} {n : Int} :
    integer? s = some n ↔ Text.IsInteger Text.decimal? Text.longestNumeral s n := by
  have hgap : Text.decimal? '_' = none := by decide
  rw [Text.isInteger_iff (by decide) (by decide), integer?]
  obtain ⟨negative, body⟩ := Text.signed s
  dsimp only
  constructor
  · intro h
    split at h
    case h_1 ds hds =>
      split at h
      case isTrue hlen =>
        obtain ⟨m, hm, rfl⟩ := Option.map_eq_some_iff.mp h
        obtain ⟨ks, hks, hlen', rfl⟩ := (Text.joined_value_iff hgap).mp ⟨ds, hds, hlen, hm⟩
        exact ⟨ks, hks, hlen', rfl⟩
      case isFalse => cases h
    case h_2 => cases h
  · rintro ⟨ks, hks, hlen, rfl⟩
    obtain ⟨ds, hds, hlen', hm⟩ := (Text.joined_value_iff hgap).mpr ⟨ks, hks, hlen, rfl⟩
    rw [hds]
    dsimp only
    rw [if_pos hlen', hm]
    rfl

theorem loadInteger_eq_ok_iff {default n : Int} :
    loadInteger env v default 1 = .ok n ↔ Stands default (env v) n := by
  unfold loadInteger
  cases env v with
  | none =>
    constructor
    · rintro ⟨⟩
      exact .unset
    · rintro ⟨⟩
      rfl
  | some s =>
    dsimp only
    constructor
    · intro h
      split at h
      case isTrue hblank =>
        cases h
        exact .blank (List.isEmpty_iff.mp hblank)
      case isFalse =>
        split at h
        case h_1 => cases h
        case h_2 m hm =>
          split at h
          case isTrue => cases h
          case isFalse hle =>
            cases h
            exact .numeral (integer?_eq_some_iff.mp hm) (Int.not_lt.mp hle)
    · intro h
      cases h with
      | blank h => rw [h]; rfl
      | numeral h hn =>
        have hm := integer?_eq_some_iff.mpr h
        have hne : (Text.trim Text.isBlank s.toList).isEmpty = false := by
          cases hs : Text.trim Text.isBlank s.toList with
          | nil =>
            rw [hs] at hm
            cases hm
          | cons c t => rfl
        rw [hne, hm, if_neg (by decide)]
        exact if_neg (Int.not_lt.mpr hn)

/-- what a variable stands for is at least 1, as the defaults are -/
theorem Stands.one_le {default n : Int} {given : Option String} (h : Stands default given n)
    (hdefault : 1 ≤ default) : 1 ≤ n := by
  cases h with
  | unset => exact hdefault
  | blank => exact hdefault
  | numeral _ hn => exact hn

theorem loadThreshold_congr {env' : Environment} (h : env v = env' v) (default : Threshold) :
    loadThreshold env v default = loadThreshold env' v default := by
  unfold loadThreshold
  rw [h]

theorem loadInteger_congr {env' : Environment} (h : env v = env' v) (default least : Int) :
    loadInteger env v default least = loadInteger env' v default least := by
  unfold loadInteger
  rw [h]

/-! ## faults -/

/-- the variable that a fault is about -/
def Fault.subject : Fault → Variable
  | .notInteger v _ => v
  | .tooSmall v _ _ => v
  | .noLevel v _ => v

theorem Fault.exists_message_eq (f : Fault) :
    ∃ rest, f.message = "Env var " ++ f.subject.name ++ " " ++ rest := by
  cases f with
  | notInteger v given =>
    have hword : " must be an integer, got " = " " ++ "must be an integer, got " := by rfl
    refine ⟨"must be an integer, got " ++ Text.quoted given, ?_⟩
    simp only [message, subject, hword, String.append_assoc]
  | tooSmall v least n =>
    have hword : " must be >= " = " " ++ "must be >= " := by rfl
    refine ⟨"must be >= " ++ Text.integerText least ++ ", got " ++ Text.integerText n, ?_⟩
    simp only [message, subject, hword, String.append_assoc]
  | noLevel v given =>
    have hword : " is not a logging level: " = " " ++ "is not a logging level: " := by rfl
    refine ⟨"is not a logging level: " ++ Text.quoted given, ?_⟩
    simp only [message, subject, hword, String.append_assoc]

theorem subject_of_loadThreshold {default : Threshold} (h : loadThreshold env v default = .error f) :
    f.subject = v := by
  unfold loadThreshold at h
  split at h
  case h_1 => cases h
  case h_2 =>
    dsimp only at h
    split at h
    case h_1 => cases h
    case h_2 =>
      cases h
      rfl

theorem subject_of_loadInteger {default least : Int} (h : loadInteger env v default least = .error f) :
    f.subject = v := by
  unfold loadInteger at h
  split at h
  case h_1 => cases h
  case h_2 =>
    dsimp only at h
    split at h
    case isTrue => cases h
    case isFalse =>
      split at h
      case h_1 =>
        cases h
        rfl
      case h_2 =>
        split at h
        case isTrue =>
          cases h
          rfl
        case isFalse => cases h

end

/-! ## all variables -/

/-- each field is what its own variable stands for -/
structure Loads (env : Environment) (s : Settings) : Prop where
  logLevel : Names (env .logLevel) s.logLevel
  matchWorkers : Stands 1 (env .matchWorkers) s.matchWorkers
  rpcUrl : s.rpcUrl = (env .rpcUrl).getD ""
  rpcTimeout : Stands 8 (env .rpcTimeout) s.rpcTimeout

def Usable (env : Environment) : Variable → Prop
  | .logLevel => ∃ t, Names (env .logLevel) t
  | .matchWorkers => ∃ n, Stands 1 (env .matchWorkers) n
  | .rpcUrl => True
  | .rpcTimeout => ∃ n, Stands 8 (env .rpcTimeout) n

/-- the variables that may be refused, in the order in which they are looked at -/
def order : List Variable := [.logLevel, .matchWorkers, .rpcTimeout]

def FirstUnusable (env : Environment) (v : Variable) : Prop :=
  ∃ before after, order = before ++ v :: after ∧ (∀ u ∈ before, Usable env u) ∧ ¬ Usable env v

section
variable {env : Environment} {s : Settings} {f : Fault}

theorem load_eq_ok_iff : load env = .ok s ↔ Loads env s := by
  constructor
  · intro h
    obtain ⟨t, ht, h⟩ := exists_of_bind_eq_ok h
    obtain ⟨w, hw, h⟩ := exists_of_bind_eq_ok h
    obtain ⟨n, hn, h⟩ := exists_of_bind_eq_ok h
    cases h
    exact ⟨loadThreshold_eq_ok_iff.mp ht, loadInteger_eq_ok_iff.mp hw, rfl, loadInteger_eq_ok_iff.mp hn⟩
  · intro h
    unfold load
    rw [loadThreshold_eq_ok_iff.mpr h.logLevel, loadInteger_eq_ok_iff.mpr h.matchWorkers,
      loadInteger_eq_ok_iff.mpr h.rpcTimeout, ← h.rpcUrl]
    rfl

theorem not_usable_logLevel (h : loadThreshold env .logLevel .info = .error f) :
    ¬ Usable env .logLevel := by
  rintro ⟨t, ht⟩
  rw [loadThreshold_eq_ok_iff.mpr ht] at h
  cases h

theorem not_stands {v : Variable} {default : Int} (h : loadInteger env v default 1 = .error f) :
    ¬ ∃ n, Stands default (env v) n := by
  rintro ⟨n, hn⟩
  rw [loadInteger_eq_ok_iff.mpr hn] at h
  cases h

/-- the fault that is reported is about the first variable that cannot be used -/
theorem firstUnusable_of_load (h : load env = .error f) : FirstUnusable env f.subject := by
  rcases eq_error_of_bind_eq_error h with ht | ⟨t, ht, h⟩
  · rw [subject_of_loadThreshold ht]
    exact ⟨[], _, rfl, List.forall_mem_nil _, not_usable_logLevel ht⟩
  have hlevel : Usable env .logLevel := ⟨t, loadThreshold_eq_ok_iff.mp ht⟩
  rcases eq_error_of_bind_eq_error h with hw | ⟨w, hw, h⟩
  · rw [subject_of_loadInteger hw]
    exact ⟨[.logLevel], _, rfl, by simpa using hlevel, not_stands hw⟩
  have hworkers : Usable env .matchWorkers := ⟨w, loadInteger_eq_ok_iff.mp hw⟩
  rcases eq_error_of_bind_eq_error h with hn | ⟨n, hn, h⟩
  · rw [subject_of_loadInteger hn]
    exact ⟨[.logLevel, .matchWorkers], _, rfl, by simpa using ⟨hlevel, hworkers⟩, not_stands hn⟩
  · cases h

theorem exists_load_iff : (∃ s, load env = .ok s) ↔ ∀ v, Usable env v := by
  simp only [load_eq_ok_iff]
  constructor
  · rintro ⟨s, hs⟩ v
    cases v with
    | logLevel => exact ⟨_, hs.logLevel⟩
    | matchWorkers => exact ⟨_, hs.matchWorkers⟩
    | rpcUrl => trivial
    | rpcTimeout => exact ⟨_, hs.rpcTimeout⟩
  · intro h
    obtain ⟨t, ht⟩ := h .logLevel
    obtain ⟨w, hw⟩ := h .matchWorkers
    obtain ⟨n, hn⟩ := h .rpcTimeout
    exact ⟨⟨t, w, _, n⟩, ht, hw, rfl, hn⟩

/-- two environments that agree on a variable give its field the same value -/
theorem Loads.congr {env' : Environment} {s' : Settings} (h : Loads env s) (h' : Loads env' s') :
    (env .logLevel = env' .logLevel → s.logLevel = s'.logLevel) ∧
    (env .matchWorkers = env' .matchWorkers → s.matchWorkers = s'.matchWorkers) ∧
    (env .rpcUrl = env' .rpcUrl → s.rpcUrl = s'.rpcUrl) ∧
    (env .rpcTimeout = env' .rpcTimeout → s.rpcTimeout = s'.rpcTimeout) := by
  have hnumber : ∀ {v : Variable} {default n n' : Int}, Stands default (env v) n →
      Stands default (env' v) n' → env v = env' v → n = n' := by
    intro v default n n' hn hn' heq
    have hload := loadInteger_eq_ok_iff.mpr hn
    rw [loadInteger_congr heq, loadInteger_eq_ok_iff.mpr hn'] at hload
    exact (Except.ok.inj hload).symm
  refine ⟨fun heq => ?_, hnumber h.matchWorkers h'.matchWorkers, fun heq => ?_,
    hnumber h.rpcTimeout h'.rpcTimeout⟩
  · have hload := loadThreshold_eq_ok_iff.mpr h.logLevel
    rw [loadThreshold_congr heq, loadThreshold_eq_ok_iff.mpr h'.logLevel] at hload
    exact (Except.ok.inj hload).symm
  · rw [h.rpcUrl, h'.rpcUrl, heq]

end

/-- **Settings are loaded from exactly the usable environments.**  There are settings exactly if the level
is named and both numbers are usable; otherwise the message names the first variable that is not, and
the log level is looked at before the workers and these before the timeout.  Each field is what its own
variable stands for, whatever the others are set to, and both numbers are at least 1. -/
theorem load_accepts_exactly (env : Environment) :
    ((∃ s, load env = .ok s) ↔ ∀ v, Usable env v) ∧
    (∀ f, load env = .error f →
      ∃ v rest, FirstUnusable env v ∧ f.message = "Env var " ++ v.name ++ " " ++ rest) ∧
    (∀ s, load env = .ok s ↔ Loads env s) ∧
    ∀ s, load env = .ok s → 1 ≤ s.matchWorkers ∧ 1 ≤ s.rpcTimeout ∧
      ∀ env' s', load env' = .ok s' →
        (env .logLevel = env' .logLevel → s.logLevel = s'.logLevel) ∧
        (env .matchWorkers = env' .matchWorkers → s.matchWorkers = s'.matchWorkers) ∧
        (env .rpcUrl = env' .rpcUrl → s.rpcUrl = s'.rpcUrl) ∧
        (env .rpcTimeout = env' .rpcTimeout → s.rpcTimeout = s'.rpcTimeout) := by
  refine ⟨exists_load_iff, fun f hf => ?_, fun s => load_eq_ok_iff, fun s hs => ?_⟩
  · obtain ⟨rest, hrest⟩ := f.exists_message_eq
    exact ⟨f.subject, rest, firstUnusable_of_load hf, hrest⟩
  · have hloads := load_eq_ok_iff.mp hs
    exact ⟨hloads.matchWorkers.one_le (by decide), hloads.rpcTimeout.one_le (by decide),
      fun env' s' hs' => hloads.congr (load_eq_ok_iff.mp hs')⟩

/-- a level whose capital has lost its dot, a number with a sign, zeros in front, an underscore and a digit of
another script, and a blank timeout; with two underscores in a row it is the number that is named, although
the timeout cannot be used either -/
theorem load_accepts_exactly_scripts :
    let env : Environment
      | .logLevel => some " \u0131nfo\n"
      | .matchWorkers => some "+00_\u0663"
      | .rpcUrl => none
      | .rpcTimeout => some " \x1c"
    let env' : Environment
      | .matchWorkers => some "1__0"
      | .rpcTimeout => some "0"
      | _ => none
    load env = .ok { matchWorkers := 3 } ∧ Loads env { matchWorkers := 3 } ∧
    Text.IsInteger Text.decimal? Text.longestNumeral ['+', '0', '0', '_', '\u0663'] 3 ∧
    ∃ v rest, FirstUnusable env' v ∧
      "Env var VERIFIER_MATCH_WORKERS must be an integer, got '1__0'" =
        "Env var " ++ v.name ++ " " ++ rest := by
  intro env env'
  have hload : load env = .ok { matchWorkers := 3 } := by decide +kernel
  have hfault : load env' = .error (.notInteger .matchWorkers "1__0") := by decide +kernel
  have hmessage : (Fault.notInteger .matchWorkers "1__0").message =
      "Env var VERIFIER_MATCH_WORKERS must be an integer, got '1__0'" := by decide +kernel
  have hdigits : Text.Writes Text.decimal? [0, 0, 3] ['0', '0', '_', '\u0663'] :=
    .next (by decide) (.gap (by decide) (.one (by decide)))
  rw [← hmessage]
  exact ⟨hload, ((load_accepts_exactly env).2.2.1 _).mp hload, .plus hdigits (by decide),
    (load_accepts_exactly env').2.1 _ hfault⟩

end CodeMatch.Settings
