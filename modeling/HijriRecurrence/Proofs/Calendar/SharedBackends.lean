import HijriRecurrence.Calendar.Registry
import Mathlib.Data.List.Induction

/-!
# The registry over time

A registry keeps three things that change apart from each other: the settings, the shared backends
and the host's answer.  The settings are read whenever a backend is asked for, while a backend stays
as it was built and the host is not asked twice.

* `Step`, `afterSteps` — what may be done to a registry, and what becomes of it;
* `Sound` — what holds of every registry: its settings pass their check, the answer it remembers is
  the host's, and a shared backend is one of the variant that it serves;
* `afterSteps_orderly` — what callers may count on, whatever has been done before.
-/

namespace HijriRecurrence

/-! ### Settings -/

namespace Config

/-- Settings pass the check when they may be set to what they are. -/
def IsChecked (config : Config) : Prop := config.apply [] = .ok config

/-- Whether new backends keep a cache, and of which size. -/
def cacheSize? (config : Config) : Option Value :=
  if config.cacheEnabled.truthy then some config.cacheMaxSize else none

theorem isChecked_standard : ({} : Config).IsChecked := rfl

/-- What comes out of the check passes it. -/
theorem isChecked_of_check {main host fallback enabled size : Value} {config : Config}
    (h : check main host fallback enabled size = .ok config) : config.IsChecked := by
  cases hmain : variant? main with
  | none => simp [check, hmain] at h
  | some mainVariant =>
    cases hfallback : variant? fallback with
    | none => simp [check, hmain, hfallback] at h
    | some fallbackVariant =>
      cases hsize : size.countable? with
      | none => simp [check, hmain, hfallback, hsize] at h
      | some count =>
        simp only [check, hmain, hfallback, hsize] at h
        split at h
        · cases h
        · rename_i hcount
          obtain rfl := Except.ok.inj h
          show check (.str mainVariant.token) host (.str fallbackVariant.token) enabled size = _
          simp only [check, variant?, Variant.ofToken?_token, hsize, if_neg hcount]

theorem isChecked_of_set {config changed : Config} {changes : List (String × Value)}
    (h : config.set changes = .ok changed) : changed.IsChecked := by
  rw [set] at h
  split at h
  · exact isChecked_of_check h
  · cases h

/-- The fallback is the tabular calendar, also where the settings name the observed one. -/
theorem fallback_eq (config : Config) : config.fallback = .tabular := by
  unfold fallback
  split
  · rfl
  · cases hvariant : config.fallbackCalendar with
    | tabular => rfl
    | ummAlQura => contradiction

end Config

/-! ### Backends -/

def Backend.cacheSize? (backend : Backend) : Option Value := backend.cache?.map (·.maxSize)

theorem MonthCache.maxSize_lengthOf (c : MonthCache) (key : MonthKey)
    (search : Unit → Except Error Int) : (c.lengthOf key search).2.maxSize = c.maxSize := by
  have hget : (c.get key).2.maxSize = c.maxSize := by
    unfold MonthCache.get
    split <;> rfl
  have hput (length : Value) : (c.put key length).maxSize = c.maxSize := by
    unfold MonthCache.put
    split <;> rfl
  unfold MonthCache.lengthOf
  split
  · rename_i used hused
    rw [← hget, hused]
  · split
    · rfl
    · rename_i length _
      have htry : (c.tryPut key (.int length)).2.maxSize = c.maxSize := hput _
      split
      all_goals
        rename_i hfilled
        rw [← htry, hfilled]

namespace Backend

variable (host : Host) (backend : Backend) (year month : Int)

/-- A backend that has been asked for a length serves the variant that it served before. -/
theorem variant_monthLength :
    (backend.monthLength host year month).2.variant = backend.variant := by
  unfold monthLength
  split <;> rfl

/-- A backend that has been asked for a length has the cache settings that it had before. -/
theorem cacheSize?_monthLength :
    (backend.monthLength host year month).2.cacheSize? = backend.cacheSize? := by
  unfold monthLength
  split
  case h_4 => exact congrArg some (MonthCache.maxSize_lengthOf _ _ _)
  all_goals rfl

end Backend

namespace Registry

variable {host : Host} {r : Registry} {variant : Variant} {number : Nat}

theorem variant_newBackend (config : Config) (variant : Variant) :
    (newBackend config variant).variant = variant := by
  cases variant <;> rfl

theorem cacheSize?_newBackend (config : Config) :
    (newBackend config .ummAlQura).cacheSize? = config.cacheSize? := by
  rw [newBackend, newObserved, Config.cacheSize?, Backend.cacheSize?, Backend.cache?]
  split <;> rfl

/-- The observed variant serves itself where the settings allow it and the host answers; for
everything else there is the tabular one. -/
theorem resolve_eq (config : Config) (host : Host) (variant : Variant) :
    resolve config host variant =
      if variant = .ummAlQura ∧ config.useHostCalendar.truthy ∧ host.available then .ummAlQura
      else .tabular := by
  cases variant with
  | tabular => rfl
  | ummAlQura =>
    simp only [resolve, Config.fallback_eq, Bool.and_eq_true, true_and]

example : resolve { fallbackCalendar := .ummAlQura } (fun _ => .error "no tables") .ummAlQura =
    .tabular := rfl

/-! ### Registries in order -/

/-- What holds of every registry, whatever has been done to it. -/
structure Sound (host : Host) (r : Registry) : Prop where
  /-- The settings pass their check. -/
  isChecked : r.config.IsChecked
  /-- The answer that is remembered is the host's. -/
  answered : ∀ answers, r.hostAnswers = some answers → answers = host.available
  /-- A shared backend is one of the variant that it serves. -/
  serves : ∀ variant number, r.shared? variant = some number →
    ∃ backend, r.backends[number]? = some backend ∧ backend.variant = variant

theorem sound_empty (host : Host) : Sound host {} where
  isChecked := Config.isChecked_standard
  answered := fun _ h => by cases h
  serves := fun variant _ h => by cases variant <;> cases h

/-- The host gives the same answer whether it has been asked before or not. -/
theorem Sound.askHost (h : Sound host r) :
    r.askHost host = (host.available, { r with hostAnswers := some host.available }) ∧
      Sound host { r with hostAnswers := some host.available } := by
  have hasked (answers : Bool) (hanswers : some host.available = some answers) :
      answers = host.available := (Option.some.inj hanswers).symm
  refine ⟨?_, h.isChecked, hasked, h.serves⟩
  cases hanswers : r.hostAnswers with
  | none => simp only [Registry.askHost, hanswers]
  | some answers =>
    have hkept : { r with hostAnswers := some answers } = r := by rw [← hanswers]
    rw [← h.answered answers hanswers, hkept]
    simp only [Registry.askHost, hanswers]

/-- Finding the variant that serves a variant changes no more than what is remembered of the
host. -/
theorem Sound.serving (h : Sound host r) (variant : Variant) :
    ∃ answers, r.serving host variant =
        (resolve r.config host variant, { r with hostAnswers := answers }) ∧
      Sound host { r with hostAnswers := answers } := by
  obtain ⟨hask, hasked⟩ := h.askHost
  cases variant with
  | tabular => exact ⟨r.hostAnswers, rfl, h⟩
  | ummAlQura =>
    cases hallowed : r.config.useHostCalendar.truthy with
    | false =>
      refine ⟨r.hostAnswers, ?_, h⟩
      simp only [Registry.serving, resolve, hallowed, Bool.false_and, Bool.false_eq_true, if_false]
    | true =>
      refine ⟨some host.available, ?_, hasked⟩
      simp only [Registry.serving, resolve, hallowed, hask, Bool.true_and, if_true]

/-- What is remembered of the host has no effect on what is shared. -/
@[simp] theorem shared?_withAnswers (answers : Option Bool) (variant : Variant) :
    { r with hostAnswers := answers }.shared? variant = r.shared? variant := by
  cases variant <;> rfl

theorem shared?_withShared (other : Variant) :
    (r.withShared variant number).shared? other =
      if other = variant then some number else r.shared? other := by
  cases variant <;> cases other <;> rfl

@[simp] theorem config_withShared : (r.withShared variant number).config = r.config := by
  cases variant <;> rfl

@[simp] theorem hostAnswers_withShared : (r.withShared variant number).hostAnswers = r.hostAnswers := by
  cases variant <;> rfl

@[simp] theorem backends_withShared : (r.withShared variant number).backends = r.backends := by
  cases variant <;> rfl

/-- Settings may change as they like, as long as they pass their check. -/
theorem Sound.withConfig (h : Sound host r) {config : Config} (hconfig : config.IsChecked) :
    Sound host { r with config } :=
  ⟨hconfig, h.answered, h.serves⟩

theorem Sound.setConfig (h : Sound host r) (changes : List (String × Value)) :
    Sound host (r.setConfig changes).2 := by
  cases hset : r.config.set changes with
  | error e => simpa only [Registry.setConfig, hset] using h
  | ok config =>
    simpa only [Registry.setConfig, hset] using h.withConfig (Config.isChecked_of_set hset)

theorem Sound.reset (h : Sound host r) : Sound host r.reset where
  isChecked := h.isChecked
  answered := fun _ hanswers => by cases hanswers
  serves := fun variant _ hshared => by cases variant <;> cases hshared

/-- A shared backend that has to be built takes the next number. -/
theorem share_of_none (hshared : r.shared? variant = none) :
    r.share variant = (r.backends.length,
      { r with backends := r.backends ++ [newBackend r.config variant] }.withShared variant
        r.backends.length) := by
  simp only [share, hshared, add]

theorem share_of_some (hshared : r.shared? variant = some number) :
    r.share variant = (number, r) := by
  simp only [share, hshared]

/-- Sharing adds at most a backend with the settings in effect. -/
theorem backends_share {backend : Backend}
    (hbackend : (r.share variant).2.backends[number]? = some backend) :
    r.backends[number]? = some backend ∨
      (r.share variant).1 = number ∧ number = r.backends.length ∧
        backend = newBackend r.config backend.variant := by
  cases hshared : r.shared? variant with
  | some found =>
    left
    rwa [share_of_some hshared] at hbackend
  | none =>
    rw [share_of_none hshared, backends_withShared] at hbackend
    by_cases hlt : number < r.backends.length
    · left
      rwa [List.getElem?_append_left hlt] at hbackend
    · right
      rw [List.getElem?_append_right (Nat.not_lt.1 hlt), List.getElem?_singleton] at hbackend
      split at hbackend
      · rename_i hlast
        obtain rfl := Option.some.inj hbackend
        have hlength : number = r.backends.length := by omega
        rw [share_of_none hshared, variant_newBackend]
        exact ⟨hlength.symm, hlength, rfl⟩
      · cases hbackend

/-- What is shared is found again. -/
theorem shared?_share (r : Registry) (variant : Variant) :
    (r.share variant).2.shared? variant = some (r.share variant).1 := by
  cases hshared : r.shared? variant with
  | some number => rw [share_of_some hshared, hshared]
  | none => rw [share_of_none hshared, shared?_withShared, if_pos rfl]

/-- Sharing takes no shared backend away. -/
theorem shared?_share_of_some {other : Variant} (hother : r.shared? other = some number) :
    (r.share variant).2.shared? other = some number := by
  cases hshared : r.shared? variant with
  | some found => rwa [share_of_some hshared]
  | none =>
    have hne : other ≠ variant := by
      rintro rfl
      rw [hshared] at hother
      cases hother
    rw [share_of_none hshared, shared?_withShared, if_neg hne]
    exact hother

theorem Sound.share (h : Sound host r) (variant : Variant) : Sound host (r.share variant).2 := by
  cases hshared : r.shared? variant with
  | some number => rwa [share_of_some hshared]
  | none =>
    rw [share_of_none hshared]
    refine ⟨?_, ?_, ?_⟩
    · rw [config_withShared]
      exact h.isChecked
    · rw [hostAnswers_withShared]
      exact h.answered
    · intro other number hother
      rw [backends_withShared]
      rw [shared?_withShared] at hother
      split at hother
      · rename_i hsame
        obtain rfl := Option.some.inj hother
        refine ⟨newBackend r.config variant, ?_, ?_⟩
        · exact List.getElem?_concat_length
        · rw [hsame, variant_newBackend]
      · obtain ⟨backend, hbackend, hvariant⟩ := h.serves other number hother
        refine ⟨backend, ?_, hvariant⟩
        have hlt : number < r.backends.length := (List.getElem?_eq_some_iff.1 hbackend).1
        rw [List.getElem?_append_left hlt]
        exact hbackend

/-- A backend that is asked for gets shared, after the host has been asked if need be. -/
theorem Sound.fetchNamed (h : Sound host r) (variant : Variant) :
    ∃ answers, Sound host { r with hostAnswers := answers } ∧
      r.fetchNamed host (.known variant) =
        (.ok ({ r with hostAnswers := answers }.share (resolve r.config host variant)).1,
          ({ r with hostAnswers := answers }.share (resolve r.config host variant)).2) := by
  obtain ⟨answers, hserving, hsound⟩ := h.serving variant
  refine ⟨answers, hsound, ?_⟩
  simp only [Registry.fetchNamed, CalendarName.variant, fetch, hserving]

/-- Giving a backend another state does not matter, as long as it serves the same variant. -/
theorem Sound.update (h : Sound host r) {backend : Backend}
    (hvariant : backend.variant = (r.backend number).variant) :
    Sound host (r.update number backend) := by
  refine ⟨h.isChecked, h.answered, ?_⟩
  intro variant shared hshared
  obtain ⟨old, hold, hserves⟩ := h.serves variant shared hshared
  by_cases hnumber : number = shared
  · subst hnumber
    have hlt : number < r.backends.length := (List.getElem?_eq_some_iff.1 hold).1
    refine ⟨backend, List.getElem?_set_self hlt, ?_⟩
    rw [hvariant, Registry.backend, List.getD_eq_getElem?_getD, hold, Option.getD_some, hserves]
  · exact ⟨old, by rw [Registry.update, List.getElem?_set_ne hnumber, hold], hserves⟩

/-! ### One step -/

/-- What may be done to a registry: the settings are changed or restored, the shared backends are
forgotten, the backend of a calendar is asked for, and a backend is asked for the length of a
month. -/
inductive Step where
  | setConfig (changes : List (String × Value))
  | resetConfig
  | reset
  | fetch (name : CalendarName)
  | monthLength (number : Nat) (year month : Int)

def after (host : Host) (r : Registry) : Step → Registry
  | .setConfig changes => (r.setConfig changes).2
  | .resetConfig => r.resetConfig
  | .reset => r.reset
  | .fetch name => (r.fetchNamed host name).2
  | .monthLength number year month =>
    r.update number ((r.backend number).monthLength host year month).2

/-- Every step keeps a registry in order. -/
theorem Sound.after (h : Sound host r) (step : Step) : Sound host (r.after host step) := by
  cases step with
  | setConfig changes => exact h.setConfig changes
  | resetConfig => exact h.withConfig Config.isChecked_standard
  | reset => exact h.reset
  | fetch name =>
    cases name with
    | unknown given => exact h
    | known variant =>
      obtain ⟨answers, hsound, hfetch⟩ := h.fetchNamed variant
      rw [Registry.after, hfetch]
      exact hsound.share _
  | monthLength number year month =>
    exact h.update (Backend.variant_monthLength host (r.backend number) year month)

/-- Every step but forgetting the shared backends leaves them shared. -/
theorem Sound.shared?_after (h : Sound host r) {step : Step} (hstep : step ≠ .reset)
    (hshared : r.shared? variant = some number) :
    (r.after host step).shared? variant = some number := by
  cases step with
  | setConfig changes =>
    rw [Registry.after, Registry.setConfig]
    split <;> cases variant <;> exact hshared
  | resetConfig => cases variant <;> exact hshared
  | reset => contradiction
  | fetch name =>
    cases name with
    | unknown given => exact hshared
    | known asked =>
      obtain ⟨answers, -, hfetch⟩ := h.fetchNamed asked
      rw [Registry.after, hfetch]
      apply shared?_share_of_some
      rw [shared?_withAnswers, hshared]
  | monthLength _ _ _ => cases variant <;> exact hshared

/-- A backend is there after a step with the cache settings that it had before, or else the step has
built it with the settings in effect. -/
theorem Sound.backends_after (h : Sound host r) (step : Step) {backend : Backend}
    (hbackend : (r.after host step).backends[number]? = some backend) :
    (∃ old, r.backends[number]? = some old ∧ old.variant = backend.variant ∧
        old.cacheSize? = backend.cacheSize?) ∨
      ∃ name, step = .fetch name ∧ (r.fetchNamed host name).1 = .ok number ∧
        number = r.backends.length ∧ backend = newBackend r.config backend.variant := by
  have hkept (hsame : r.backends[number]? = some backend) :
      ∃ old, r.backends[number]? = some old ∧ old.variant = backend.variant ∧
        old.cacheSize? = backend.cacheSize? :=
    ⟨backend, hsame, rfl, rfl⟩
  cases step with
  | setConfig changes =>
    rw [Registry.after, Registry.setConfig] at hbackend
    split at hbackend <;> exact .inl (hkept hbackend)
  | resetConfig => exact .inl (hkept hbackend)
  | reset => exact .inl (hkept hbackend)
  | fetch name =>
    cases name with
    | unknown given => exact .inl (hkept hbackend)
    | known variant =>
      obtain ⟨answers, -, hfetch⟩ := h.fetchNamed variant
      rw [Registry.after, hfetch] at hbackend
      rcases backends_share hbackend with hsame | ⟨hnumber, hlength, hbuilt⟩
      · exact .inl (hkept hsame)
      · right
        refine ⟨.known variant, rfl, ?_, hlength, hbuilt⟩
        rw [hfetch, hnumber]
  | monthLength asked year month =>
    left
    rw [Registry.after, Registry.update, List.getElem?_set] at hbackend
    split at hbackend
    · rename_i hasked
      subst hasked
      split at hbackend
      · rename_i hlt
        obtain rfl := Option.some.inj hbackend
        refine ⟨r.backend asked, ?_, ?_, ?_⟩
        · rw [Registry.backend, List.getD_eq_getElem?_getD, List.getElem?_eq_getElem hlt,
            Option.getD_some]
        · rw [Backend.variant_monthLength]
        · rw [Backend.cacheSize?_monthLength]
      · cases hbackend
    · exact hkept hbackend

/-! ### Any number of steps -/

def afterSteps (host : Host) (steps : List Step) : Registry := steps.foldl (after host) {}

theorem afterSteps_append (host : Host) (steps later : List Step) :
    afterSteps host (steps ++ later) = later.foldl (after host) (afterSteps host steps) :=
  List.foldl_append

theorem Sound.foldl (h : Sound host r) (steps : List Step) :
    Sound host (steps.foldl (Registry.after host) r) := by
  induction steps generalizing r with
  | nil => exact h
  | cons step steps ih => exact ih (h.after step)

theorem sound_afterSteps (host : Host) (steps : List Step) : Sound host (afterSteps host steps) :=
  (sound_empty host).foldl steps

/-- As long as the shared backends are not forgotten they stay shared. -/
theorem Sound.shared?_foldl (h : Sound host r) {steps : List Step} (hsteps : .reset ∉ steps)
    (hshared : r.shared? variant = some number) :
    (steps.foldl (Registry.after host) r).shared? variant = some number := by
  induction steps generalizing r with
  | nil => exact hshared
  | cons step steps ih =>
    rw [List.mem_cons, not_or] at hsteps
    exact ih (h.after step) hsteps.2 (h.shared?_after (Ne.symm hsteps.1) hshared)

/-- Every backend was built by a step that asked for it, and has kept the cache settings of then. -/
theorem exists_fetch_of_backend (host : Host) (steps : List Step) {backend : Backend}
    (hbackend : (afterSteps host steps).backends[number]? = some backend) :
    ∃ earlier name later, steps = earlier ++ .fetch name :: later ∧
      ((afterSteps host earlier).fetchNamed host name).1 = .ok number ∧
      number = (afterSteps host earlier).backends.length ∧
      backend.cacheSize? =
        (newBackend (afterSteps host earlier).config backend.variant).cacheSize? := by
  -- The last step has built the backend, or else it was there before with the same settings.
  induction steps using List.reverseRecOn generalizing backend with
  | nil => cases hbackend
  | append_singleton steps step ih =>
    rw [afterSteps_append] at hbackend
    rcases (sound_afterSteps host steps).backends_after step hbackend with
      ⟨old, hold, hvariant, hsize⟩ | ⟨name, rfl, hfetch, hnumber, hbuilt⟩
    · obtain ⟨earlier, name, later, rfl, hfetch, hnumber, hsettings⟩ := ih hold
      refine ⟨earlier, name, later ++ [step], ?_, hfetch, hnumber, ?_⟩
      · rw [List.append_assoc, List.cons_append]
      · rw [← hsize, hsettings, hvariant]
    · exact ⟨steps, name, [], rfl, hfetch, hnumber, congrArg Backend.cacheSize? hbuilt⟩

/-- A backend that is asked for serves the variant that is to be served. -/
theorem Sound.exists_fetchNamed (h : Sound host r) (variant : Variant) :
    ∃ number backend, (r.fetchNamed host (.known variant)).1 = .ok number ∧
      (r.fetchNamed host (.known variant)).2.shared? (resolve r.config host variant) =
        some number ∧
      (r.fetchNamed host (.known variant)).2.backends[number]? = some backend ∧
      backend.variant = resolve r.config host variant := by
  obtain ⟨answers, hsound, hfetch⟩ := h.fetchNamed variant
  have hshared := shared?_share { r with hostAnswers := answers } (resolve r.config host variant)
  obtain ⟨backend, hbackend, hvariant⟩ := (hsound.share _).serves _ _ hshared
  rw [hfetch]
  exact ⟨_, backend, rfl, hshared, hbackend, hvariant⟩

/-- What is shared already is what a caller gets. -/
theorem Sound.fetchNamed_of_shared (h : Sound host r)
    (hshared : r.shared? (resolve r.config host variant) = some number) :
    (r.fetchNamed host (.known variant)).1 = .ok number := by
  obtain ⟨answers, -, hfetch⟩ := h.fetchNamed variant
  rw [← shared?_withAnswers answers] at hshared
  rw [hfetch, share_of_some hshared]

/-- **The registry stays in order, whatever is done to it.**  Its settings pass their check, and a
change that is refused changes nothing.  Whoever asks for a calendar gets a backend: the observed
one where the observed calendar is asked for, the settings allow it and the host answers, and the
tabular one otherwise.  Two requests that come to the same variant get the same backend, unless the
shared backends are forgotten between them.  And an observed backend keeps the cache settings that
were in effect when it was built for the one who asked first. -/
theorem afterSteps_orderly (host : Host) (steps : List Step) :
    let r := afterSteps host steps
    r.config.IsChecked ∧
    (∀ changes e, (r.setConfig changes).1 = .error e → (r.setConfig changes).2 = r) ∧
    (∀ variant, ∃ number backend, (r.fetchNamed host (.known variant)).1 = .ok number ∧
      (r.fetchNamed host (.known variant)).2.backends[number]? = some backend ∧
      backend.variant =
        if variant = .ummAlQura ∧ r.config.useHostCalendar.truthy ∧ host.available then .ummAlQura
        else .tabular) ∧
    (∀ first second later, .reset ∉ later →
      let next := afterSteps host (steps ++ .fetch (.known first) :: later)
      resolve r.config host first = resolve next.config host second →
        (next.fetchNamed host (.known second)).1 = (r.fetchNamed host (.known first)).1) ∧
    ∀ number backend, r.backends[number]? = some backend → backend.variant = .ummAlQura →
      ∃ earlier name later, steps = earlier ++ .fetch name :: later ∧
        ((afterSteps host earlier).fetchNamed host name).1 = .ok number ∧
        number = (afterSteps host earlier).backends.length ∧
        backend.cacheSize? = (afterSteps host earlier).config.cacheSize? := by
  intro r
  have hr : Sound host r := sound_afterSteps host steps
  refine ⟨hr.isChecked, ?_, ?_, ?_, ?_⟩
  · intro changes e hrefused
    unfold setConfig at hrefused ⊢
    split at hrefused
    · cases hrefused
    · rfl
  · intro variant
    obtain ⟨number, backend, hfetch, -, hbackend, hvariant⟩ := hr.exists_fetchNamed variant
    exact ⟨number, backend, hfetch, hbackend, hvariant.trans (resolve_eq r.config host variant)⟩
  · intro first second later hlater next hserving
    obtain ⟨number, -, hfetch, hshared, -, -⟩ := hr.exists_fetchNamed first
    have hnext : next = later.foldl (after host) (r.after host (.fetch (.known first))) :=
      afterSteps_append host steps _
    have hkept : next.shared? (resolve next.config host second) = some number := by
      rw [← hserving, hnext]
      exact (hr.after _).shared?_foldl hlater hshared
    rw [(sound_afterSteps host _).fetchNamed_of_shared hkept, hfetch]
  · intro number backend hbackend hvariant
    obtain ⟨earlier, name, later, hsteps, hfetch, hnumber, hsize⟩ :=
      exists_fetch_of_backend host steps hbackend
    refine ⟨earlier, name, later, hsteps, hfetch, hnumber, ?_⟩
    rw [hsize, hvariant, cacheSize?_newBackend]

end Registry

end HijriRecurrence
