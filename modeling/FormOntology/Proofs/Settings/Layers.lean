import FormOntology.Proofs.Vocabulary
import FormOntology.Settings.Resolve

/-!
# Settings in layers

Every setting comes from the first of three layers that has it: what replaces it, the file, and the
defaults.  Each is looked up for itself, so a file that writes one setting of a group leaves the
others at their defaults, and what replaces one setting leaves the others to the file.  Settings in
effect describe a compiler: what they are checked for is all that it needs.

## Main definitions

* `SettingsGroup`, `SettingsGroup.written?` — what a file has written for a setting.
* `Layered` — the value of a setting by its layers.
* `Settings.InEffect` — every setting by its layers.
* `Settings.HasFile` — the file of settings that is at a path, if one is given.

## Main results

* `Settings.InEffect.unique` — the layers leave no choice.
* `Compiler.ofSettings_eq_ok_iff` — the settings that describe a compiler.
* `Settings.resolve_eq_ok_iff` — when settings are in effect, and which.
* `Settings.resolve_layers` — **settings in effect come from their layers and describe a compiler,
  and a file of settings is only refused if there are no documents or no vocabulary.**
-/

namespace FormOntology

/-! ### Layers -/

/-- The groups of settings in a file. -/
inductive SettingsGroup where
  /-- The settings of a compile. -/
  | compiler
  /-- The settings of a server. -/
  | server
  deriving DecidableEq, Repr

namespace SettingsGroup

/-- The name of a group in a file. -/
def name : SettingsGroup → String
  | compiler => "compiler"
  | server => "serve"

/-- The names of its settings. -/
def settings : SettingsGroup → List String
  | compiler => ["ontology_dir", "documents", "accepted_prefixes", "extra_classes"]
  | server => ["listen", "watch_interval_secs", "compile_timeout_secs"]

/-- What a file has written for a setting, if there is a file and it has the setting. -/
def written? (g : SettingsGroup) (setting : String) (file : Option JsonTree) : Option JsonTree := do
  let groups ← (← file).record? [name compiler, name server] false
  let fields ← (← groups.lookup g.name).record? g.settings false
  fields.lookup setting

end SettingsGroup

/-- The value of a setting by its layers: what replaces it, what is written for it, and the
default. -/
inductive Layered {α : Type} (override? : Option α) (written? : Option JsonTree)
    (read? : JsonTree → Option α) (default : α) : α → Prop
  /-- What replaces it comes first. -/
  | override {a : α} (ho : override? = some a) : Layered override? written? read? default a
  /-- If nothing does, it is what the file says. -/
  | file {t : JsonTree} {a : α} (ho : override? = none) (hw : written? = some t)
      (ha : read? t = some a) : Layered override? written? read? default a
  /-- If the file says nothing either, it is the default. -/
  | default (ho : override? = none) (hw : written? = none) :
      Layered override? written? read? default default

/-- A list replaces a setting if it is not empty. -/
def Overrides.replacing? : List String → Option (List String)
  | [] => none
  | name :: names => some (name :: names)

/-- Every setting by its layers. -/
structure Settings.InEffect (file : Option JsonTree) (o : Overrides) (s : Settings) : Prop where
  /-- The directory of the documents. -/
  root : Layered o.root (SettingsGroup.compiler.written? "ontology_dir" file) JsonTree.string?
    ({} : CompilerSettings).root s.compiler.root
  /-- The documents. -/
  documents : Layered (Overrides.replacing? o.documents)
    (SettingsGroup.compiler.written? "documents" file) (JsonTree.list? JsonTree.string?)
    ({} : CompilerSettings).documents s.compiler.documents
  /-- The accepted namespace names. -/
  namespaces : Layered (Overrides.replacing? o.namespaces)
    (SettingsGroup.compiler.written? "accepted_prefixes" file) (JsonTree.list? JsonTree.string?)
    ({} : CompilerSettings).namespaces s.compiler.namespaces
  /-- The rules, which nothing replaces. -/
  rules : Layered none (SettingsGroup.compiler.written? "extra_classes" file)
    (JsonTree.list? ClassRule.ofTree?) [] s.compiler.rules
  /-- Where a server listens. -/
  listen : Layered none (SettingsGroup.server.written? "listen" file)
    (fun t => t.string?.bind SocketAddress.parse?) ({} : ServerSettings).listen s.server.listen
  /-- The seconds between two looks at the documents. -/
  watchSeconds : Layered none (SettingsGroup.server.written? "watch_interval_secs" file)
    JsonTree.natural? ({} : ServerSettings).watchSeconds s.server.watchSeconds
  /-- The seconds that a compile may take. -/
  timeoutSeconds : Layered none (SettingsGroup.server.written? "compile_timeout_secs" file)
    JsonTree.natural? ({} : ServerSettings).timeoutSeconds s.server.timeoutSeconds

/-- The file of settings at a path: none if no path is given, and else a JSON text of settings. -/
inductive Settings.HasFile (read : FileReader) : Option String → Option JsonTree → Prop
  /-- No file is asked for. -/
  | none : HasFile read none none
  /-- The file can be read, and it has settings. -/
  | file {path text : String} {t : JsonTree} (hread : read.text path = .ok text)
      (hparse : JsonTree.parse? text.toList = some t) (hsettings : (ofTree? t).isSome) :
      HasFile read (some path) (some t)

namespace Layered

variable {α : Type} {override? : Option α} {written? : Option JsonTree}
  {read? : JsonTree → Option α} {default a b : α}

/-- The layers leave no choice. -/
theorem unique (ha : Layered override? written? read? default a)
    (hb : Layered override? written? read? default b) : a = b := by
  cases ha with
  | override ho =>
    cases hb with
    | override ho' => exact Option.some.inj (ho.symm.trans ho')
    | file ho' => cases ho.symm.trans ho'
    | default ho' => cases ho.symm.trans ho'
  | file ho hw ha =>
    cases hb with
    | override ho' => cases ho.symm.trans ho'
    | file _ hw' hb =>
      obtain rfl := Option.some.inj (hw.symm.trans hw')
      exact Option.some.inj (ha.symm.trans hb)
    | default _ hw' => cases hw.symm.trans hw'
  | default ho hw =>
    cases hb with
    | override ho' => cases ho.symm.trans ho'
    | file _ hw' => cases hw.symm.trans hw'
    | default => rfl

/-- What a file and the defaults give may be replaced. -/
theorem getD (h : Layered none written? read? default a) :
    Layered override? written? read? default (override?.getD a) := by
  cases override? with
  | some b => exact .override rfl
  | none => exact h

/-- A field of a record is what is written for it or the default. -/
theorem of_fieldOr {fields : List (String × JsonTree)} {name : String}
    (h : JsonTree.fieldOr fields name read? default = some a) :
    Layered none (fields.lookup name) read? default a := by
  unfold JsonTree.fieldOr at h
  split at h
  · next t ht => exact .file rfl ht h
  · next hnone =>
    cases h
    exact .default rfl hnone

end Layered

/-! ### The settings of a file -/

namespace Settings

variable {file : Option JsonTree} {o : Overrides} {s : Settings}

/-- The layers leave no choice for any setting. -/
theorem InEffect.unique {s' : Settings} (h : InEffect file o s) (h' : InEffect file o s') :
    s = s' := by
  obtain ⟨⟨root, documents, namespaces, rules⟩, listen, watch, timeout⟩ := s
  obtain ⟨⟨root', documents', namespaces', rules'⟩, listen', watch', timeout'⟩ := s'
  obtain rfl : root = root' := h.root.unique h'.root
  obtain rfl : documents = documents' := h.documents.unique h'.documents
  obtain rfl : namespaces = namespaces' := h.namespaces.unique h'.namespaces
  obtain rfl : rules = rules' := h.rules.unique h'.rules
  obtain rfl : listen = listen' := h.listen.unique h'.listen
  obtain rfl : watch = watch' := h.watchSeconds.unique h'.watchSeconds
  obtain rfl : timeout = timeout' := h.timeoutSeconds.unique h'.timeoutSeconds
  rfl

/-- What is replaced is replaced in the settings of the file. -/
theorem InEffect.apply (h : InEffect file {} s) (o : Overrides) :
    InEffect file o (o.apply s) := by
  have hlist : ∀ l l' : List String,
      (if l.isEmpty then l' else l) = (Overrides.replacing? l).getD l' := by
    intro l l'
    cases l <;> rfl
  refine ⟨h.root.getD, ?_, ?_, h.rules, h.listen, h.watchSeconds, h.timeoutSeconds⟩
  · rw [Overrides.apply, hlist o.documents]
    exact h.documents.getD
  · rw [Overrides.apply, hlist o.namespaces]
    exact h.namespaces.getD

/-- Without a file and with nothing replaced the defaults are in effect. -/
theorem inEffect_default : InEffect none {} {} :=
  ⟨.default rfl rfl, .default rfl rfl, .default rfl rfl, .default rfl rfl, .default rfl rfl,
    .default rfl rfl, .default rfl rfl⟩

end Settings

/-- Compile settings are read from the fields of their group. -/
def CompilerSettings.OfFields (fields : List (String × JsonTree)) (c : CompilerSettings) : Prop :=
  JsonTree.fieldOr fields "ontology_dir" JsonTree.string? ({} : CompilerSettings).root
      = some c.root
    ∧ JsonTree.fieldOr fields "documents" (JsonTree.list? JsonTree.string?)
      ({} : CompilerSettings).documents = some c.documents
    ∧ JsonTree.fieldOr fields "accepted_prefixes" (JsonTree.list? JsonTree.string?)
      ({} : CompilerSettings).namespaces = some c.namespaces
    ∧ JsonTree.fieldOr fields "extra_classes" (JsonTree.list? ClassRule.ofTree?) []
      = some c.rules

/-- Server settings are read from the fields of their group. -/
def ServerSettings.OfFields (fields : List (String × JsonTree)) (d : ServerSettings) : Prop :=
  JsonTree.fieldOr fields "listen" (fun t => t.string?.bind SocketAddress.parse?)
      ({} : ServerSettings).listen = some d.listen
    ∧ JsonTree.fieldOr fields "watch_interval_secs" JsonTree.natural?
      ({} : ServerSettings).watchSeconds = some d.watchSeconds
    ∧ JsonTree.fieldOr fields "compile_timeout_secs" JsonTree.natural?
      ({} : ServerSettings).timeoutSeconds = some d.timeoutSeconds

theorem CompilerSettings.exists_fields {u : JsonTree} {c : CompilerSettings}
    (h : ofTree? u = some c) :
    ∃ fields, u.record? SettingsGroup.compiler.settings false = some fields
      ∧ OfFields fields c := by
  simp only [ofTree?, Option.bind_eq_bind, Option.bind_eq_some_iff, Option.pure_def,
    Option.some.injEq] at h
  obtain ⟨fields, hfields, root, hroot, documents, hdocuments, namespaces, hnamespaces, rules,
    hrules, rfl⟩ := h
  exact ⟨fields, hfields, hroot, hdocuments, hnamespaces, hrules⟩

theorem ServerSettings.exists_fields {u : JsonTree} {d : ServerSettings}
    (h : ofTree? u = some d) :
    ∃ fields, u.record? SettingsGroup.server.settings false = some fields ∧ OfFields fields d := by
  simp only [ofTree?, Option.bind_eq_bind, Option.bind_eq_some_iff, Option.pure_def,
    Option.some.injEq] at h
  obtain ⟨fields, hfields, listen, hlisten, watch, hwatch, timeout, htimeout, rfl⟩ := h
  exact ⟨fields, hfields, hlisten, hwatch, htimeout⟩

/-- What is written for the settings of a group are the fields that it is read from.  A group that
is not there counts as one without fields. -/
theorem SettingsGroup.exists_fields {t : JsonTree} {groups : List (String × JsonTree)}
    (hgroups : t.record? [compiler.name, server.name] false = some groups) {g : SettingsGroup}
    {σ : Type} {ofTree? : JsonTree → Option σ} {OfFields : List (String × JsonTree) → σ → Prop}
    {default a : σ} (hdefault : OfFields [] default)
    (hread : ∀ {u a}, ofTree? u = some a →
      ∃ fields, u.record? g.settings false = some fields ∧ OfFields fields a)
    (h : JsonTree.fieldOr groups g.name ofTree? default = some a) :
    ∃ fields, (∀ setting, g.written? setting (some t) = fields.lookup setting)
      ∧ OfFields fields a := by
  unfold JsonTree.fieldOr at h
  split at h
  · next u hu =>
    obtain ⟨fields, hfields, ha⟩ := hread h
    exact ⟨fields, fun setting => by simp [written?, hgroups, hu, hfields], ha⟩
  · next hnone =>
    cases h
    exact ⟨[], fun setting => by simp [written?, hgroups, hnone], hdefault⟩

namespace Settings

/-- With nothing replaced the settings that are read from a file are in effect. -/
theorem inEffect_of_ofTree? {t : JsonTree} {s : Settings} (h : ofTree? t = some s) :
    InEffect (some t) {} s := by
  simp only [ofTree?, Option.bind_eq_bind, Option.bind_eq_some_iff, Option.pure_def,
    Option.some.injEq] at h
  obtain ⟨groups, hgroups, c, hc, d, hd, rfl⟩ := h
  obtain ⟨fields, hwritten, hroot, hdocuments, hnamespaces, hrules⟩ :=
    SettingsGroup.exists_fields (g := .compiler) hgroups ⟨rfl, rfl, rfl, rfl⟩
      CompilerSettings.exists_fields hc
  obtain ⟨fields', hwritten', hlisten, hwatch, htimeout⟩ :=
    SettingsGroup.exists_fields (g := .server) hgroups ⟨rfl, rfl, rfl⟩
      ServerSettings.exists_fields hd
  constructor
  · rw [hwritten]
    exact .of_fieldOr hroot
  · rw [hwritten]
    exact .of_fieldOr hdocuments
  · rw [hwritten]
    exact .of_fieldOr hnamespaces
  · rw [hwritten]
    exact .of_fieldOr hrules
  · rw [hwritten']
    exact .of_fieldOr hlisten
  · rw [hwritten']
    exact .of_fieldOr hwatch
  · rw [hwritten']
    exact .of_fieldOr htimeout

end Settings

/-! ### Compilers -/

/-- Settings pass their check exactly if there are documents and a vocabulary. -/
theorem CompilerSettings.check_eq_ok_iff {c : CompilerSettings} :
    c.check = .ok () ↔ c.documents ≠ [] ∧ ∃ v, Vocabulary.ofNames c.namespaces = .ok v := by
  rw [check]
  split
  · next hempty =>
    rw [List.isEmpty_iff] at hempty
    simp [hempty]
  · next hne =>
    rw [List.isEmpty_iff] at hne
    rw [map_eq_ok]
    simp only [vocabulary, mapError_eq_ok, hne, and_true, not_false_eq_true, true_and, ne_eq]

/-- **Settings describe a compiler exactly if there are documents and a vocabulary.** -/
theorem Compiler.ofSettings_eq_ok_iff {s : CompilerSettings} {c : Compiler} :
    ofSettings s = .ok c ↔ s.documents ≠ []
      ∧ ∃ v, Vocabulary.ofNames s.namespaces = .ok v ∧ c = ⟨s.sources, v, s.table⟩ := by
  unfold ofSettings
  constructor
  · intro h
    split at h
    · cases h
    · next hcheck =>
      obtain ⟨v, hv, rfl⟩ := map_eq_ok.mp h
      exact ⟨(CompilerSettings.check_eq_ok_iff.mp hcheck).1, v, mapError_eq_ok.mp hv, rfl⟩
  · rintro ⟨hne, v, hv, rfl⟩
    rw [CompilerSettings.check_eq_ok_iff.mpr ⟨hne, v, hv⟩]
    exact map_eq_ok.mpr ⟨v, mapError_eq_ok.mpr hv, rfl⟩

/-! ### Settings in effect -/

namespace Settings

variable {read : FileReader} {path : Option String} {file : Option JsonTree} {o : Overrides}

/-- The settings of a file are the only ones that can be in effect, and they are checked. -/
theorem HasFile.resolve_eq (h : HasFile read path file) (o : Overrides) :
    ∃ s, InEffect file o s
      ∧ resolve read path o = (s.compiler.check.mapError ResolveFault.invalid).map fun _ => s := by
  cases h with
  | none => exact ⟨o.apply {}, inEffect_default.apply o, rfl⟩
  | @file path text t hread hparse hsettings =>
    obtain ⟨s, hs⟩ := Option.isSome_iff_exists.mp hsettings
    have hload : load read path = .ok s := by
      rw [load, loadSettings, hread]
      simp only [hparse, Option.bind_some, hs]
    refine ⟨o.apply s, (inEffect_of_ofTree? hs).apply o, ?_⟩
    rw [resolve, hload]
    rfl

/-- Settings are in effect only if the file has some. -/
theorem exists_hasFile_of_resolve {s : Settings} (h : resolve read path o = .ok s) :
    ∃ file, HasFile read path file := by
  cases path with
  | none => exact ⟨none, .none⟩
  | some path =>
    obtain ⟨loaded, hloaded, -⟩ := bind_eq_ok.mp h
    have hload : loadSettings ofTree? read path = .ok loaded := mapError_eq_ok.mp hloaded
    unfold loadSettings at hload
    split at hload
    · cases hload
    · next text htext =>
      split at hload
      · next hparse =>
        obtain ⟨t, ht, hs⟩ := Option.bind_eq_some_iff.mp hparse
        exact ⟨some t, .file htext ht (Option.isSome_iff_exists.mpr ⟨_, hs⟩)⟩
      · cases hload

/-- **Which settings are in effect.** -/
theorem resolve_eq_ok_iff {s : Settings} : resolve read path o = .ok s
    ↔ (∃ file, HasFile read path file ∧ InEffect file o s) ∧ s.compiler.documents ≠ []
      ∧ ∃ v, Vocabulary.ofNames s.compiler.namespaces = .ok v := by
  rw [← CompilerSettings.check_eq_ok_iff]
  constructor
  · intro h
    obtain ⟨file, hfile⟩ := exists_hasFile_of_resolve h
    obtain ⟨s', hs', heq⟩ := hfile.resolve_eq o
    obtain ⟨⟨⟩, hcheck, rfl⟩ := map_eq_ok.mp (heq.symm.trans h)
    exact ⟨⟨file, hfile, hs'⟩, mapError_eq_ok.mp hcheck⟩
  · rintro ⟨⟨file, hfile, hs⟩, hcheck⟩
    obtain ⟨s', hs', heq⟩ := hfile.resolve_eq o
    obtain rfl := hs.unique hs'
    rw [heq, hcheck]
    rfl

/-- **Settings in effect describe a compiler, and every one of them comes from its layers.**  Where
no file is asked for or the file has settings, the layers give exactly one value for each, and these
settings are refused exactly if there are no documents or the namespace names make no vocabulary.
The vocabulary has well formed names in the order in which they were first given, none of them
twice, and they make it again. -/
theorem resolve_layers (read : FileReader) (path : Option String) (o : Overrides) :
    (∀ s, resolve read path o = .ok s →
        (∃ c, Compiler.ofSettings s.compiler = .ok c
          ∧ c.sources = ⟨s.compiler.root, s.compiler.documents⟩
          ∧ Vocabulary.ofNames s.compiler.namespaces = .ok c.vocabulary
          ∧ c.table = ClassTable.standard.addAll s.compiler.rules)
        ∧ ∃ file, HasFile read path file ∧ InEffect file o s)
      ∧ (∀ file, HasFile read path file → ∃ s, InEffect file o s
        ∧ (∀ s', InEffect file o s' → s' = s)
        ∧ ((∃ fault, resolve read path o = .error fault) ↔ s.compiler.documents = []
          ∨ ∃ e, Vocabulary.ofNames s.compiler.namespaces = .error e))
      ∧ ∀ names v, Vocabulary.ofNames names = .ok v →
        v.accepted ≠ [] ∧ v.accepted.Nodup ∧ (∀ name ∈ v.accepted, isName name.toList = true)
          ∧ v.accepted = (names.map Vocabulary.normalize).eraseDups
          ∧ Vocabulary.ofNames v.accepted = .ok v := by
  refine ⟨?resolved, ?refused, ?vocabulary⟩
  case resolved =>
    intro s hs
    obtain ⟨hfile, hne, v, hv⟩ := resolve_eq_ok_iff.mp hs
    refine ⟨⟨_, Compiler.ofSettings_eq_ok_iff.mpr ⟨hne, v, hv, rfl⟩, rfl, hv, rfl⟩, hfile⟩
  case refused =>
    intro file hfile
    obtain ⟨s, hs, heq⟩ := hfile.resolve_eq o
    refine ⟨s, hs, fun s' hs' => hs'.unique hs, ?_⟩
    have hcheck : (∃ fault, resolve read path o = .error fault) ↔ s.compiler.check ≠ .ok () := by
      rw [heq]
      cases s.compiler.check <;> simp [Except.mapError, Except.map]
    rw [hcheck, ne_eq, CompilerSettings.check_eq_ok_iff, exists_eq_error_iff, not_and_or,
      not_exists, ne_eq, not_not]
  case vocabulary =>
    intro names v hv
    exact ⟨v.ne_nil, v.nodup, v.isName_of_mem, (Vocabulary.ofNames_eq_ok_iff.mp hv).2.2,
      v.ofNames_accepted⟩

/-- A file that writes one setting in either group. -/
def twoSettings : String :=
  "\x7b\"compiler\":\x7b\"documents\":[\"a.ttl\"]\x7d,\"serve\":\x7b\"watch_interval_secs\":5\x7d\x7d"

/-- The only file that can be read. -/
def twoSettingsReader : FileReader := fun path =>
  if path = "c.json" then .ok twoSettings.toUTF8 else .error .notFound

/-- Names replace the default ones next to what the file writes, and a name that is not well formed
is refused with the same file. -/
theorem twoSettings_layers :
    (∃ s, resolve twoSettingsReader (some "c.json") ⟨some "kb", [], [" ex: ", "own", "ex"]⟩ = .ok s
        ∧ s.compiler = ⟨"kb", ["a.ttl"], [" ex: ", "own", "ex"], []⟩
        ∧ s.server = { watchSeconds := 5 }
        ∧ ∃ c, Compiler.ofSettings s.compiler = .ok c ∧ c.vocabulary.accepted = ["ex", "own"]
          ∧ Vocabulary.ofNames ["ex", "own"] = .ok c.vocabulary)
      ∧ ∃ fault, resolve twoSettingsReader (some "c.json") ⟨none, [], ["no name"]⟩
        = .error fault := by
  constructor
  · obtain ⟨hresolved, -, hvocabulary⟩ :=
      resolve_layers twoSettingsReader (some "c.json") ⟨some "kb", [], [" ex: ", "own", "ex"]⟩
    have hs : resolve twoSettingsReader (some "c.json")
        ⟨some "kb", [], [" ex: ", "own", "ex"]⟩
        = .ok ⟨⟨"kb", ["a.ttl"], [" ex: ", "own", "ex"], []⟩, { watchSeconds := 5 }⟩ := by
      decide +kernel
    obtain ⟨⟨c, hc, -, hnames, -⟩, -⟩ := hresolved _ hs
    obtain ⟨-, -, -, hsame, hagain⟩ := hvocabulary _ _ hnames
    have haccepted : c.vocabulary.accepted = ["ex", "own"] := hsame.trans (by decide +kernel)
    exact ⟨_, hs, rfl, rfl, c, hc, haccepted, haccepted ▸ hagain⟩
  · obtain ⟨-, hrefused, -⟩ :=
      resolve_layers twoSettingsReader (some "c.json") ⟨none, [], ["no name"]⟩
    have hread : twoSettingsReader.text "c.json" = .ok twoSettings := by decide +kernel
    have hparse : ((JsonTree.parse? twoSettings.toList).bind ofTree?).isSome = true := by
      decide +kernel
    obtain ⟨loaded, hloaded⟩ := Option.isSome_iff_exists.mp hparse
    obtain ⟨t, ht, hsettings⟩ := Option.bind_eq_some_iff.mp hloaded
    obtain ⟨s, hs, -, hiff⟩ :=
      hrefused (some t) (.file hread ht (Option.isSome_iff_exists.mpr ⟨loaded, hsettings⟩))
    -- the names in effect are those that replace the ones of the file
    have hnames : s.compiler.namespaces = ["no name"] := hs.namespaces.unique (.override rfl)
    rw [hiff, hnames]
    exact .inr ⟨.invalidName "no name", by decide +kernel⟩

end Settings

end FormOntology
