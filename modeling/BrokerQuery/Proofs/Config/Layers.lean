import BrokerQuery.Proofs.Command.Conditions
import BrokerQuery.Proofs.Config.Settings
/-
  Which layer a setting comes from, and what can go wrong on the way.

  `Reads` says what a file sets that may be missing, and `Unusable` why a file that is there sets
  nothing.  `Merged` says of each setting, on its own, that it is the first one that is present, and
  `Invalid` what is wrong with settings once they are merged.  `Refuses` puts the failures in their
  order: the profile, the overlay, the merged settings.

    1. Checking: the granularity is checked last, and can then no longer be wrong, since in a zone
       that is known every text is a granularity (`Granularity.exists_ofText`).  So the errors of the
       check are those of `Invalid` (`decides_check`).
    2. Reading: each layer is read to what `Reads` says, or fails as `Unusable` says
       (`decides_readProfile`, `decides_readOverlay`).
    3. Loading: both together, in order (`decides_load`).  A local file plays no part where the
       command line names another one (`load_of_named`).
    4. The granularity of the command line is no setting.  It takes its place before the others when
       a query is built (`granularity_of_layers`).
-/

namespace BrokerQuery

/-! ## Time zones and granularities -/

/-- A zone is resolved iff the database has it, to the name that it has there. -/
theorem TimeZone.resolve_eq_ok_iff (zone? : Option String) (zone : String) :
    resolve zone? = .ok zone ↔
      databaseName (zone?.getD standard) ∈ names ∧ zone = databaseName (zone?.getD standard) := by
  simp only [resolve]
  split
  next h => simp [h, eq_comm]
  next h => simp [h]

/-- A zone that the database does not have is reported under the name that was looked for. -/
theorem TimeZone.resolve_eq_error_iff (zone? : Option String) (name : String) :
    resolve zone? = .error name ↔
      databaseName (zone?.getD standard) ∉ names ∧ name = databaseName (zone?.getD standard) := by
  simp only [resolve]
  split
  next h => simp [h]
  next h => simp [h, eq_comm]

/-- In a zone that is used, every text is a granularity. -/
theorem Granularity.exists_ofText {tz : Option String} {zone : String}
    (h : TimeZone.resolve tz = .ok zone) (s : String) : ∃ g, ofText s tz = .ok g := by
  unfold ofText zone?
  cases NamedGranularity.ofName? s with
  | some name => exact ⟨_, rfl⟩
  | none =>
    rw [h]
    exact ⟨_, rfl⟩

namespace Config

open Fallible (Decides)

/-! ## Merged settings -/

/-- The first value that is present. -/
def firstPresent (layers : List (Option α)) : Option α := layers.findSome? id

/-- The settings of all layers: each one is the first that is present, whatever the others are. -/
structure Merged (o : Overrides) (overlay profile : FileSettings) (c : Config) : Prop where
  brokerUrl : c.brokerUrl =
    (firstPresent [o.brokerUrl, overlay.brokerUrl, profile.brokerUrl]).getD defaultUrl
  timeoutSecs : c.timeoutSecs =
    (firstPresent [o.timeoutSecs, overlay.timeoutSecs, profile.timeoutSecs]).getD
      defaultTimeoutSecs
  timeZone : c.defaults.timeZone =
    firstPresent [o.timeZone, overlay.timeZone, profile.timeZone]
  granularity : c.defaults.granularity =
    (firstPresent [overlay.granularity, profile.granularity]).getD defaultGranularity

theorem firstPresent_pair (x y : Option α) : firstPresent [x, y] = x.or y := by
  cases x <;> cases y <;> rfl

theorem firstPresent_triple (x y z : Option α) : firstPresent [x, y, z] = x.or (y.or z) := by
  cases x <;> cases y <;> cases z <;> rfl

/-- Merging gives the merged settings. -/
theorem merged_iff (o : Overrides) (overlay profile : FileSettings) (c : Config) :
    Merged o overlay profile c ↔ c = merge o overlay profile := by
  constructor
  · intro h
    obtain ⟨brokerUrl, timeoutSecs, granularity, timeZone⟩ := c
    obtain ⟨hurl, htimeout, hzone, hgranularity⟩ := h
    rw [firstPresent_triple] at hurl htimeout hzone
    rw [firstPresent_pair] at hgranularity
    dsimp only at hurl htimeout hzone hgranularity
    rw [hurl, htimeout, hzone, hgranularity]
    rfl
  · rintro rfl
    constructor
    · rw [firstPresent_triple]; rfl
    · rw [firstPresent_triple]; rfl
    · rw [firstPresent_triple]; rfl
    · rw [firstPresent_pair]; rfl

/-! ## Checking -/

/-- The URL of the broker without the blanks around it. -/
def trimmedUrl (c : Config) : List Char := Text.trimChars c.brokerUrl.toList

/-- The URL has one of the two schemes. -/
def HasHttpScheme (url : List Char) : Prop :=
  "http://".toList <+: url ∨ "https://".toList <+: url

/-- The name that the time zone goes by in the database. -/
def zoneName (c : Config) : String :=
  TimeZone.databaseName (c.defaults.timeZone.getD TimeZone.standard)

/-- What is wrong with settings; of several faults the first one counts. -/
inductive Invalid (c : Config) : ConfigError → Prop
  | emptyUrl (h : c.trimmedUrl = []) : Invalid c .emptyUrl
  | otherScheme (hurl : c.trimmedUrl ≠ []) (h : ¬ HasHttpScheme c.trimmedUrl) :
      Invalid c (.otherScheme (String.ofList c.trimmedUrl))
  | zeroTimeout (hscheme : HasHttpScheme c.trimmedUrl) (h : c.timeoutSecs = 0) :
      Invalid c .zeroTimeout
  | unknownZone (hscheme : HasHttpScheme c.trimmedUrl) (htimeout : c.timeoutSecs ≠ 0)
      (h : c.zoneName ∉ TimeZone.names) :
      Invalid c (.unknownZone (c.defaults.timeZone.getD "") c.zoneName)

theorem startsHttp_iff (url : List Char) : startsHttp url = true ↔ HasHttpScheme url := by
  rw [startsHttp, Bool.or_eq_true, List.isPrefixOf_iff_prefix, List.isPrefixOf_iff_prefix]
  rfl

theorem HasHttpScheme.ne_nil {url : List Char} (h : HasHttpScheme url) : url ≠ [] := by
  rintro rfl
  rcases h with h | h <;> exact nomatch List.eq_nil_of_prefix_nil h

/-- A URL with one of the schemes passes what the check asks of URLs. -/
theorem HasHttpScheme.passes {c : Config} (h : HasHttpScheme c.trimmedUrl) :
    Text.trimChars c.brokerUrl.toList ≠ [] ∧
      startsHttp (Text.trimChars c.brokerUrl.toList) = true :=
  ⟨h.ne_nil, (startsHttp_iff _).mpr h⟩

/-- Settings that will do. -/
structure Valid (c : Config) : Prop where
  scheme : HasHttpScheme c.trimmedUrl
  timeout : c.timeoutSecs ≠ 0
  zone : c.zoneName ∈ TimeZone.names

/-- Valid settings pass, and so does their granularity, whatever its text. -/
theorem check_of_valid {c : Config} (h : c.Valid) : check c = .ok c := by
  have hresolve := (TimeZone.resolve_eq_ok_iff c.defaults.timeZone _).mpr ⟨h.zone, rfl⟩
  obtain ⟨g, hg⟩ := Granularity.exists_ofText hresolve c.defaults.granularity
  obtain ⟨hne, hstarts⟩ := h.scheme.passes
  simp only [check, hne, hstarts, h.timeout, hresolve, hg, if_false, Bool.not_true,
    Bool.false_eq_true]

/-- The fault of settings is the error of the check. -/
theorem check_of_invalid {c : Config} {e : ConfigError} (h : c.Invalid e) :
    check c = .error e := by
  cases h with
  | emptyUrl h =>
    unfold trimmedUrl at h
    simp only [check, h, if_true]
  | otherScheme hurl h =>
    rw [← startsHttp_iff, Bool.not_eq_true] at h
    unfold trimmedUrl at hurl h
    simp only [check, hurl, h, if_false, Bool.not_false, if_true]
    rfl
  | zeroTimeout hscheme h =>
    obtain ⟨hne, hstarts⟩ := hscheme.passes
    simp only [check, hne, hstarts, h, if_false, Bool.not_true, Bool.false_eq_true, if_true]
  | unknownZone hscheme htimeout h =>
    have hresolve := (TimeZone.resolve_eq_error_iff c.defaults.timeZone _).mpr ⟨h, rfl⟩
    obtain ⟨hne, hstarts⟩ := hscheme.passes
    simp only [check, hne, hstarts, htimeout, hresolve, if_false, Bool.not_true,
      Bool.false_eq_true]
    rfl

theorem valid_or_invalid (c : Config) : c.Valid ∨ ∃ e, c.Invalid e := by
  by_cases hurl : c.trimmedUrl = []
  · exact .inr ⟨_, .emptyUrl hurl⟩
  by_cases hscheme : HasHttpScheme c.trimmedUrl
  · by_cases htimeout : c.timeoutSecs = 0
    · exact .inr ⟨_, .zeroTimeout hscheme htimeout⟩
    by_cases hzone : c.zoneName ∈ TimeZone.names
    · exact .inl ⟨hscheme, htimeout, hzone⟩
    · exact .inr ⟨_, .unknownZone hscheme htimeout hzone⟩
  · exact .inr ⟨_, .otherScheme hurl hscheme⟩

/-- The check lets valid settings pass as they are, and tells what is wrong with all others. -/
theorem decides_check (c : Config) :
    Decides (check c) (fun c' => c.Valid ∧ c' = c) c.Invalid := by
  refine .of_total (fun c' h => ?_) (fun e h => check_of_invalid h) ?_
  · rw [h.2, check_of_valid h.1]
  · exact c.valid_or_invalid.imp (fun h => ⟨c, h, rfl⟩) id

/-- A configuration passes if its URL starts as it should, its timeout is not zero, and its time zone
can be resolved. -/
theorem check_eq_ok_iff (c c' : Config) :
    check c = .ok c' ↔
      Text.trimChars c.brokerUrl.toList ≠ [] ∧
      startsHttp (Text.trimChars c.brokerUrl.toList) = true ∧ c.timeoutSecs ≠ 0 ∧
      (∃ zone, TimeZone.resolve c.defaults.timeZone = .ok zone) ∧ c' = c := by
  rw [(decides_check c).ok_iff]
  constructor
  · rintro ⟨hvalid, hc⟩
    exact ⟨hvalid.scheme.passes.1, hvalid.scheme.passes.2, hvalid.timeout,
      ⟨_, (TimeZone.resolve_eq_ok_iff _ _).mpr ⟨hvalid.zone, rfl⟩⟩, hc⟩
  · rintro ⟨_, hhttp, htimeout, ⟨zone, hzone⟩, hc⟩
    exact ⟨⟨(startsHttp_iff _).mp hhttp, htimeout,
      ((TimeZone.resolve_eq_ok_iff _ _).mp hzone).1⟩, hc⟩

/-! ## Reading -/

/-- What a file sets that may be missing. -/
inductive Reads (fs : FileSystem) : Option String → FileSettings → Prop
  | unnamed : Reads fs none {}
  | missing {path : String} (h : fs path = .missing) : Reads fs (some path) {}
  | file {path content : String} {s : FileSettings} (h : fs path = .text content)
      (hs : FileSettings.ofText? content = some s) : Reads fs (some path) s

/-- Why a file that is there sets nothing. -/
inductive Unusable (fs : FileSystem) : Option String → ConfigError → Prop
  | unreadable {path : String} (h : fs path = .folder) :
      Unusable fs (some path) (.unreadable path)
  | malformed {path content : String} (h : fs path = .text content)
      (hs : FileSettings.ofText? content = none) : Unusable fs (some path) (.malformed path)

/-- A file that may be missing is read to what it sets, or fails because it is unusable. -/
theorem decides_readIfThere (fs : FileSystem) (path : String) :
    Decides (readIfThere fs path) (Reads fs (some path)) (Unusable fs (some path)) := by
  refine .of_total (fun s h => ?_) (fun e h => ?_) ?_
  · cases h with
    | missing h => simp only [readIfThere, h, FileEntry.isThere, if_false, Bool.false_eq_true]
    | file h hs => simp only [readIfThere, readFile, h, hs, FileEntry.isThere, if_true]
  · cases h with
    | unreadable h => simp only [readIfThere, readFile, h, FileEntry.isThere, if_true]
    | malformed h hs => simp only [readIfThere, readFile, h, hs, FileEntry.isThere, if_true]
  · cases h : fs path with
    | missing => exact .inl ⟨_, .missing h⟩
    | folder => exact .inr ⟨_, .unreadable h⟩
    | text content =>
      cases hs : FileSettings.ofText? content with
      | none => exact .inr ⟨_, .malformed h hs⟩
      | some s => exact .inl ⟨s, .file h hs⟩

/-- So is the profile, which a user without a home folder does not have. -/
theorem decides_readProfile (fs : FileSystem) (paths : ConfigPaths) :
    Decides (readProfile fs paths) (Reads fs paths.profile) (Unusable fs paths.profile) := by
  unfold readProfile
  cases paths.profile with
  | some path => exact decides_readIfThere fs path
  | none =>
    refine .of_total (fun s h => ?_) (fun e h => nomatch h) (.inl ⟨_, .unnamed⟩)
    cases h
    rfl

/-- The file of the overlay: the one that the command line names, else the local one. -/
def overlayPath (home : Option String) (o : Overrides) (paths : ConfigPaths) : String :=
  match o.config with
  | some path => expandHome home path
  | none => paths.localFile

/-- A file that the command line names is not there. -/
def NamedMissing (fs : FileSystem) (home : Option String) (o : Overrides) (paths : ConfigPaths) :
    Prop :=
  o.config.isSome ∧ fs (overlayPath home o paths) = .missing

/-- What is wrong with the overlay. -/
inductive NoOverlay (fs : FileSystem) (home : Option String) (o : Overrides) (paths : ConfigPaths) :
    ConfigError → Prop
  | missing (h : NamedMissing fs home o paths) :
      NoOverlay fs home o paths (.missing (overlayPath home o paths))
  | unusable {e : ConfigError} (h : Unusable fs (some (overlayPath home o paths)) e) :
      NoOverlay fs home o paths e

/-- A file that is named is read like any other, but it must be there. -/
theorem readOverlay_eq (fs : FileSystem) (home : Option String) (o : Overrides) (paths : ConfigPaths)
    (h : ¬ NamedMissing fs home o paths) :
    readOverlay fs home o paths = readIfThere fs (overlayPath home o paths) := by
  unfold readOverlay overlayPath
  cases hconfig : o.config with
  | none => rfl
  | some path =>
    have hthere : fs (expandHome home path) ≠ .missing := by
      intro hmissing
      refine h ⟨by rw [hconfig]; rfl, ?_⟩
      unfold overlayPath
      rw [hconfig]
      exact hmissing
    have his : (fs (expandHome home path)).isThere = true := by
      cases hentry : fs (expandHome home path) with
      | missing => exact absurd hentry hthere
      | folder => rfl
      | text content => rfl
    simp only [readIfThere, his, if_true]

/-- A file that is named must be there. -/
theorem readOverlay_of_missing {fs : FileSystem} {home : Option String} {o : Overrides}
    {paths : ConfigPaths} (h : NamedMissing fs home o paths) :
    readOverlay fs home o paths = .error (.missing (overlayPath home o paths)) := by
  obtain ⟨hnamed, hmissing⟩ := h
  unfold readOverlay
  unfold overlayPath at hmissing ⊢
  cases hconfig : o.config with
  | none =>
    rw [hconfig] at hnamed
    exact nomatch hnamed
  | some path =>
    rw [hconfig] at hmissing
    dsimp only at hmissing ⊢
    simp only [hmissing, FileEntry.isThere, if_false, Bool.false_eq_true]

/-- The overlay is read like any file, unless it is named and missing. -/
theorem decides_readOverlay (fs : FileSystem) (home : Option String) (o : Overrides)
    (paths : ConfigPaths) :
    Decides (readOverlay fs home o paths)
      (fun s => ¬ NamedMissing fs home o paths ∧ Reads fs (some (overlayPath home o paths)) s)
      (NoOverlay fs home o paths) := by
  have hread := decides_readIfThere fs (overlayPath home o paths)
  by_cases hmissing : NamedMissing fs home o paths
  · refine .of_total (fun s h => absurd hmissing h.1) (fun e h => ?_) (.inr ⟨_, .missing hmissing⟩)
    cases h with
    | missing => exact readOverlay_of_missing hmissing
    | unusable h =>
      -- A file that is not there is not unusable.
      cases h with
      | unreadable h => exact nomatch hmissing.2.symm.trans h
      | malformed h => exact nomatch hmissing.2.symm.trans h
  · rw [readOverlay_eq fs home o paths hmissing]
    refine ⟨fun s => (hread.ok_iff s).trans ⟨fun h => ⟨hmissing, h⟩, fun h => h.2⟩,
      fun e => (hread.error_iff e).trans ⟨.unusable, fun h => ?_⟩⟩
    cases h with
    | missing h => exact absurd h hmissing
    | unusable h => exact h

/-! ## Loading -/

/-- The configuration without the warnings: the profile, the overlay, then the check of both. -/
theorem config_load (fs : FileSystem) (home : Option String) (o : Overrides) (paths : ConfigPaths) :
    (load fs home o paths).config = (do
      let profile ← readProfile fs paths
      let overlay ← readOverlay fs home o paths
      check (merge o overlay profile)) := by
  unfold load
  cases readProfile fs paths with
  | error e => rfl
  | ok profile => cases readOverlay fs home o paths <;> rfl

/-- What the files set: those of the profile and those of the overlay. -/
structure Layers (fs : FileSystem) (home : Option String) (o : Overrides) (paths : ConfigPaths)
    (overlay profile : FileSettings) : Prop where
  profile : Reads fs paths.profile profile
  named : ¬ NamedMissing fs home o paths
  overlay : Reads fs (some (overlayPath home o paths)) overlay

/-- Why there is no configuration: the first thing that goes wrong, of the profile, the overlay and
the merged settings. -/
inductive Refuses (fs : FileSystem) (home : Option String) (o : Overrides) (paths : ConfigPaths) :
    ConfigError → Prop
  | profile {e : ConfigError} (h : Unusable fs paths.profile e) : Refuses fs home o paths e
  | overlay {profile : FileSettings} {e : ConfigError} (hprofile : Reads fs paths.profile profile)
      (h : NoOverlay fs home o paths e) : Refuses fs home o paths e
  | settings {overlay profile : FileSettings} {c : Config} {e : ConfigError}
      (hlayers : Layers fs home o paths overlay profile) (hmerged : Merged o overlay profile c)
      (h : c.Invalid e) : Refuses fs home o paths e

/-- Loading gives the merged settings of all layers if they are valid, and else the first thing that
went wrong. -/
theorem decides_load (fs : FileSystem) (home : Option String) (o : Overrides) (paths : ConfigPaths) :
    Decides (load fs home o paths).config
      (fun c => ∃ overlay profile, Layers fs home o paths overlay profile ∧
        Merged o overlay profile c ∧ c.Valid)
      (Refuses fs home o paths) := by
  have h := (decides_readProfile fs paths).bind fun profile _ =>
    (decides_readOverlay fs home o paths).bind fun overlay _ =>
      decides_check (merge o overlay profile)
  rw [config_load]
  -- `h` has all of it in the order of the reads; what is left is to bring the parts together.
  refine ⟨fun c => (h.ok_iff c).trans ⟨?_, ?_⟩, fun e => (h.error_iff e).trans ⟨?_, ?_⟩⟩
  · rintro ⟨profile, hprofile, overlay, ⟨hnamed, hoverlay⟩, hvalid, hc⟩
    exact ⟨overlay, profile, ⟨hprofile, hnamed, hoverlay⟩, (merged_iff _ _ _ _).mpr hc,
      hc ▸ hvalid⟩
  · rintro ⟨overlay, profile, ⟨hprofile, hnamed, hoverlay⟩, hmerged, hvalid⟩
    have hc := (merged_iff _ _ _ _).mp hmerged
    exact ⟨profile, hprofile, overlay, ⟨hnamed, hoverlay⟩, hc ▸ hvalid, hc⟩
  · rintro (hunusable | ⟨profile, hprofile, hno | ⟨overlay, ⟨hnamed, hoverlay⟩, hinvalid⟩⟩)
    · exact .profile hunusable
    · exact .overlay hprofile hno
    · exact .settings ⟨hprofile, hnamed, hoverlay⟩ ((merged_iff _ _ _ _).mpr rfl) hinvalid
  · intro hrefuses
    cases hrefuses with
    | profile hunusable => exact .inl hunusable
    | overlay hprofile hno => exact .inr ⟨_, hprofile, .inl hno⟩
    | settings hlayers hmerged hinvalid =>
      have hc := (merged_iff _ _ _ _).mp hmerged
      exact .inr ⟨_, hlayers.profile, .inr ⟨_, ⟨hlayers.named, hlayers.overlay⟩, hc ▸ hinvalid⟩⟩

/-- The time zone of a configuration that was loaded can be resolved. -/
theorem resolve_of_load {fs : FileSystem} {home : Option String} {overrides : Overrides}
    {paths : ConfigPaths} {c : Config} (h : (load fs home overrides paths).config = .ok c) :
    ∃ zone, TimeZone.resolve c.defaults.timeZone = .ok zone := by
  obtain ⟨_, _, _, _, hvalid⟩ := ((decides_load fs home overrides paths).ok_iff c).mp h
  exact ⟨_, (TimeZone.resolve_eq_ok_iff _ _).mpr ⟨hvalid.zone, rfl⟩⟩

/-- Where the command line names a file, nothing depends on the local one, nor on any file but that
and the profile. -/
theorem load_of_named {fs fs' : FileSystem} {home : Option String} {path : String} {o : Overrides}
    {paths : ConfigPaths} (h : o.config = some path)
    (hprofile : ∀ p, paths.profile = some p → fs' p = fs p)
    (hpath : fs' (expandHome home path) = fs (expandHome home path)) (localFile : String) :
    load fs' home o { paths with localFile } = load fs home o paths := by
  have hprofiles : readProfile fs' { paths with localFile } = readProfile fs paths := by
    unfold readProfile
    cases hp : paths.profile with
    | none => rfl
    | some p => simp only [readIfThere, readFile, hprofile p hp]
  have hoverlays : readOverlay fs' home o { paths with localFile } =
      readOverlay fs home o paths := by
    unfold readOverlay
    simp only [h, readFile, hpath]
  unfold load
  rw [hprofiles, hoverlays]

/-- The files set one thing only. -/
theorem Layers.config_eq {fs : FileSystem} {home : Option String} {o : Overrides}
    {paths : ConfigPaths} {overlay profile : FileSettings}
    (h : Layers fs home o paths overlay profile) :
    (load fs home o paths).config = check (merge o overlay profile) := by
  have hprofile := ((decides_readProfile fs paths).ok_iff profile).mpr h.profile
  have hoverlay := ((decides_readOverlay fs home o paths).ok_iff overlay).mpr ⟨h.named, h.overlay⟩
  rw [config_load, hprofile]
  show (readOverlay fs home o paths >>= _) = _
  rw [hoverlay]
  rfl

/-- A query has the granularity of its own command line, else that of the settings. -/
theorem granularity_of_layers {fs : FileSystem} {home : Option String} {o : Overrides}
    {paths : ConfigPaths} {overlay profile : FileSettings} {c : Config} {clock : Clock}
    {args : QueryArgs} {q : Query} (hlayers : Layers fs home o paths overlay profile)
    (hload : (load fs home o paths).config = .ok c)
    (hbuild : args.build clock c.defaults = .ok q) :
    Granularity.ofText
        ((firstPresent [args.granularity, overlay.granularity, profile.granularity]).getD
          defaultGranularity) c.defaults.timeZone = .ok q.granularity := by
  rw [hlayers.config_eq, (decides_check _).ok_iff] at hload
  obtain ⟨_, _, g, _, hg, hq⟩ := QueryArgs.of_build_eq_ok hbuild
  have hdefault : args.granularity.getD c.defaults.granularity =
      (firstPresent [args.granularity, overlay.granularity, profile.granularity]).getD
        defaultGranularity := by
    rw [firstPresent_triple, hload.2]
    cases args.granularity <;> rfl
  rw [← hdefault, hg, hq]

/-- **Each setting on its own, and only the merged ones are checked.**  Loading fails iff something
refuses, and then with the first thing that does: the profile, the overlay, the merged settings.
Else it gives the merged settings.  So a bad value in a lower layer does no harm, since `Invalid` is
about merged settings only.  Where the command line names a file, neither the local file nor its path
matter.  The texts that can be files of settings are the objects whose known fields fit and are
written once each; what they set are those fields, where a null fits and sets nothing.  In a query,
the granularity of the command line comes before those of the files. -/
theorem layers_of_load (fs : FileSystem) (home : Option String) (o : Overrides)
    (paths : ConfigPaths) :
    (∀ e, (load fs home o paths).config = .error e ↔ Refuses fs home o paths e) ∧
    (∀ c, (load fs home o paths).config = .ok c ↔
      ∃ overlay profile, Layers fs home o paths overlay profile ∧ Merged o overlay profile c ∧
        c.Valid) ∧
    (∀ fs' path localFile, o.config = some path →
      (∀ p, paths.profile = some p → fs' p = fs p) →
      fs' (expandHome home path) = fs (expandHome home path) →
      load fs' home o { paths with localFile } = load fs home o paths) ∧
    (∀ content s, FileSettings.ofText? content = some s →
      ∃ fields, FileSettings.Acceptable content fields ∧ s.Sets fields) ∧
    (∀ content fields, FileSettings.Acceptable content fields →
      ∃ s, FileSettings.ofText? content = some s ∧ s.Sets fields) ∧
    ∀ overlay profile c clock (args : QueryArgs) q, Layers fs home o paths overlay profile →
      (load fs home o paths).config = .ok c → args.build clock c.defaults = .ok q →
      Granularity.ofText
          ((firstPresent [args.granularity, overlay.granularity, profile.granularity]).getD
            defaultGranularity) c.defaults.timeZone = .ok q.granularity := by
  have hdecides := decides_load fs home o paths
  refine ⟨hdecides.error_iff, hdecides.ok_iff, ?_, ?_, ?_, ?_⟩
  · intro fs' path localFile hnamed hprofile hpath
    exact load_of_named hnamed hprofile hpath localFile
  · intro content s
    exact FileSettings.acceptable_of_ofText?
  · intro content fields
    exact FileSettings.ofText?_of_acceptable
  · intro overlay profile c clock args q
    exact granularity_of_layers

/-- A user whose profile has an old URL and no timeout, in a folder with a file that names a time zone
which does not exist. -/
def patchworkFiles : FileSystem := fun path =>
  if path = "/home/.druidq/druidq.json" then
    .text ("\x7b\"broker_url\": \"ftp://old\", \"timeout_secs\": 0, " ++
      "\"granularity\": \"hour\"\x7d")
  else if path = "druidq.json" then
    .text ("\x7b\"timeout_secs\": 30, \"granularity\": null, " ++
      "\"time_zone\": \"Nowhere\"\x7d")
  else .missing

def patchworkProfile : FileSettings where
  brokerUrl := some "ftp://old"
  timeoutSecs := some 0
  granularity := some "hour"

def patchworkOverlay : FileSettings where
  timeoutSecs := some 30
  timeZone := some "Nowhere"

/-- What the command line has to set for that user. -/
def patchworkOverrides : Overrides where
  brokerUrl := some " http://localhost:8082/druid/v2/ "
  timeZone := some "UTC"

/-- The settings of that user with that command line. -/
def patchworkConfig : Config :=
  ⟨" http://localhost:8082/druid/v2/ ", 30, ⟨"hour", some "UTC"⟩⟩

theorem patchwork_layers {o : Overrides} (h : o.config = none) :
    Layers patchworkFiles (some "/home") o (.standard (some "/home")) patchworkOverlay
      patchworkProfile where
  profile := .file rfl (by decide +kernel)
  named := by
    rintro ⟨hnamed, -⟩
    rw [h] at hnamed
    exact nomatch hnamed
  overlay := by
    have hpath : overlayPath (some "/home") o (.standard (some "/home")) = "druidq.json" := by
      unfold overlayPath
      rw [h]
      rfl
    rw [hpath]
    exact .file rfl (by decide +kernel)

theorem patchworkConfig_valid : patchworkConfig.Valid where
  scheme := (startsHttp_iff _).mp (by decide +kernel)
  timeout := by decide
  zone := by
    have hothers : patchworkConfig.zoneName ∈ TimeZone.others := by decide
    simp only [TimeZone.names, List.mem_append, hothers, or_true]

/-- A path from the command line that stands for no file, whatever the home folder: there is no
overlay. -/
theorem patchwork_missing {home profile : Option String} {path expanded : String}
    (hpath : expandHome home path = expanded) (hthere : patchworkFiles expanded = .missing) :
    NoOverlay patchworkFiles home { config := some path } ⟨profile, "druidq.json"⟩
      (.missing expanded) := by
  subst hpath
  exact .missing ⟨rfl, hthere⟩

/-- A field that is null, a setting and a typing error. -/
def sparseFields : List (String × Json) :=
  [("granularity", .null), ("timeout_secs", .int 30), ("typo", .array [.null])]

theorem sparse_acceptable :
    FileSettings.Acceptable (Json.object sparseFields).compact sparseFields where
  isObject := by
    have hreadable (room : Nat) : Json.Readable (room + 2) (.object sparseFields) := by
      refine .object (by decide) (List.forall_mem_cons.mpr
        ⟨.null, List.forall_mem_cons.mpr ⟨?_, ?_⟩⟩)
      · exact .int (by unfold Json.Has64Bits; omega)
      · exact List.forall_mem_singleton.mpr (.array (List.forall_mem_singleton.mpr .null))
    exact (hreadable 125).ofText?_compact
  once := by
    unfold FileSettings.KnownOnce
    decide +kernel
  fits := by
    intro name hname v hv
    rcases (FileSettings.mem_knownNames_iff name).mp hname with rfl | rfl | rfl | rfl
    · exact nomatch hv
    · exact .inr ⟨30, (Option.some.inj hv).symm⟩
    · exact .inl (Option.some.inj hv).symm
    · exact nomatch hv

/-- The command line mends what is wrong with the files, and a query has their granularity.  Without
the URL the old one is refused, and where the command line names a file that is not there, nobody
minds that the local one is a folder.  The tilde stands for the home folder, with one slash behind it,
and for itself where there is none.  A file with a field that is null is read all the same. -/
theorem patchwork_loaded :
    (load patchworkFiles (some "/home") patchworkOverrides (.standard (some "/home"))).config =
      .ok patchworkConfig ∧
    (load patchworkFiles (some "/home") {} (.standard (some "/home"))).config =
      .error (.otherScheme "ftp://old") ∧
    (load (fun path => if path = "druidq.json" then .folder else patchworkFiles path)
        (some "/home") { config := some "~/other.json" } (.standard (some "/home"))).config =
      .error (.missing "/home/other.json") ∧
    (load patchworkFiles (some "/") { config := some " ~//other.json" }
        (.standard (some "/"))).config = .error (.missing "/other.json") ∧
    (load patchworkFiles none { config := some " ~/other.json" } (.standard none)).config =
      .error (.missing "~/other.json") ∧
    (∃ s, FileSettings.ofText? (Json.object sparseFields).compact = some s ∧
      s.timeoutSecs = some 30 ∧ s.unknown = ["typo"]) ∧
    ∃ q, ({ source := "visits" } : QueryArgs).build (.ofSeconds 0) patchworkConfig.defaults =
        .ok q ∧
      Granularity.ofText "hour" (some "UTC") = .ok q.granularity := by
  obtain ⟨_, hok, _, _, hparses, hquery⟩ :=
    layers_of_load patchworkFiles (some "/home") patchworkOverrides (.standard (some "/home"))
  have hloaded := (hok patchworkConfig).mpr
    ⟨_, _, patchwork_layers rfl, ⟨rfl, rfl, rfl, rfl⟩, patchworkConfig_valid⟩
  obtain ⟨q, hq⟩ : ∃ q, ({ source := "visits" } : QueryArgs).build (.ofSeconds 0)
      patchworkConfig.defaults = .ok q := ⟨_, rfl⟩
  refine ⟨hloaded, ?_, ?_, ?_, ?_, ?_, q, hq,
    hquery _ _ _ _ _ q (patchwork_layers rfl) hloaded hq⟩
  · have hscheme : (merge {} patchworkOverlay patchworkProfile).Invalid
        (.otherScheme "ftp://old") := by
      have hfalse : ¬ HasHttpScheme (merge {} patchworkOverlay patchworkProfile).trimmedUrl := by
        rw [← startsHttp_iff]
        decide +kernel
      exact .otherScheme (by decide +kernel) hfalse
    obtain ⟨herror, _⟩ :=
      layers_of_load patchworkFiles (some "/home") {} (.standard (some "/home"))
    exact (herror _).mpr (.settings (patchwork_layers rfl) ((merged_iff _ _ _ _).mpr rfl) hscheme)
  · obtain ⟨herror, _, hnamed, _⟩ := layers_of_load patchworkFiles (some "/home")
      { config := some "~/other.json" } (.standard (some "/home"))
    have hsame := hnamed (fun path => if path = "druidq.json" then .folder else patchworkFiles path)
      "~/other.json" "druidq.json" rfl
      (fun p hp => by cases hp; decide +kernel) (by decide +kernel)
    have hexpand : expandHome (some "/home") "~/other.json" = "/home/other.json" := by
      decide +kernel
    have hrefuses := (herror _).mpr (.overlay (patchwork_layers (o := {}) rfl).profile
      (patchwork_missing hexpand (by decide +kernel)))
    exact (congrArg Loading.config hsame).trans hrefuses
  · obtain ⟨herror, _⟩ := layers_of_load patchworkFiles (some "/")
      { config := some " ~//other.json" } (.standard (some "/"))
    have hprofile : Reads patchworkFiles (some "/.druidq/druidq.json") {} :=
      .missing (by decide +kernel)
    exact (herror _).mpr (.overlay hprofile
      (patchwork_missing (by decide +kernel) (by decide +kernel)))
  · obtain ⟨herror, _⟩ := layers_of_load patchworkFiles none
      { config := some " ~/other.json" } (.standard none)
    exact (herror _).mpr (.overlay .unnamed
      (patchwork_missing (by decide +kernel) (by decide +kernel)))
  · obtain ⟨s, hs, hsets⟩ := hparses _ _ sparse_acceptable
    exact ⟨s, hs, (hsets.timeoutSecs 30).mpr rfl, hsets.unknown.trans (by decide)⟩

end Config
end BrokerQuery
