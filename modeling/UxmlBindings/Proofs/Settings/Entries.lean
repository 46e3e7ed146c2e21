import UxmlBindings.Settings.Basic

/-!
# Settings of files

Adding, changing and removing a setting bring in no setting but the added or changed one, and reach
no setting with another path. A setting is found for the paths that are among the keys. The key of a
path is its own key unless it still starts with a step into the directory itself, because only one
such step is left out.
-/

namespace UxmlBindings.Settings

variable {setting other : AssetOptions} {files : List AssetOptions} {path : String}
  {edit : AssetOptions → AssetOptions}

/-- What is among the settings after one was put there is that one or was there before. -/
theorem eq_or_mem_of_mem_putSetting (hmem : other ∈ putSetting setting files) :
    other = setting ∨ other ∈ files := by
  induction files with
  | nil => exact .inl (List.mem_singleton.1 hmem)
  | cons first rest ih =>
    rw [putSetting] at hmem
    split at hmem
    · rcases List.mem_cons.1 hmem with hnew | hrest
      · exact .inl hnew
      · exact .inr (List.mem_cons_of_mem first hrest)
    · rcases List.mem_cons.1 hmem with rfl | hrest
      · exact .inr (List.mem_cons_self ..)
      · exact (ih hrest).imp_right (List.mem_cons_of_mem first)

/-- What is among the settings after a change is a changed setting or was there before. -/
theorem mem_of_mem_changeSetting (hmem : other ∈ changeSetting path edit files) :
    other ∈ files ∨ ∃ setting ∈ files, other = edit setting := by
  induction files with
  | nil => cases hmem
  | cons first rest ih =>
    rw [changeSetting] at hmem
    split at hmem
    · rcases List.mem_cons.1 hmem with rfl | hrest
      · exact .inr ⟨first, List.mem_cons_self .., rfl⟩
      · exact .inl (List.mem_cons_of_mem first hrest)
    · rcases List.mem_cons.1 hmem with rfl | hrest
      · exact .inl (List.mem_cons_self ..)
      · rcases ih hrest with hold | ⟨setting, hsetting, heq⟩
        · exact .inl (List.mem_cons_of_mem first hold)
        · exact .inr ⟨setting, List.mem_cons_of_mem first hsetting, heq⟩

/-- A setting remains through a change, unless it is the one that is found for the path. -/
theorem mem_change_or_find? {settings : Settings} (hmem : setting ∈ settings.files) :
    setting ∈ (settings.change path edit).files ∨ settings.find? path = some setting := by
  obtain ⟨project, files⟩ := settings
  simp only [change, find?]
  induction files with
  | nil => cases hmem
  | cons first rest ih =>
    rw [changeSetting, List.find?_cons]
    by_cases hfirst : first.path = path
    · rw [if_pos hfirst, beq_iff_eq.2 hfirst]
      rcases List.mem_cons.1 hmem with rfl | hrest
      · exact .inr rfl
      · exact .inl (List.mem_cons_of_mem _ hrest)
    · rw [if_neg hfirst, beq_false_of_ne hfirst]
      rcases List.mem_cons.1 hmem with rfl | hrest
      · exact .inl (List.mem_cons_self ..)
      · exact (ih hrest).imp_left (List.mem_cons_of_mem _)

/-- A setting remains when one is added for a path without setting. -/
theorem mem_add_of_mem {settings : Settings} (hnone : settings.find? setting.path = none)
    (hmem : other ∈ settings.files) : other ∈ (settings.add setting).files := by
  obtain ⟨project, files⟩ := settings
  simp only [add, find?] at hnone hmem ⊢
  induction files with
  | nil => cases hmem
  | cons first rest ih =>
    rw [List.find?_eq_none] at hnone
    have hfirst : ¬ first.path = setting.path := by simpa using hnone first (by simp)
    rw [putSetting, if_neg hfirst]
    rcases List.mem_cons.1 hmem with rfl | hrest
    · exact List.mem_cons_self ..
    · refine List.mem_cons_of_mem _ (ih ?_ hrest)
      exact List.find?_eq_none.2 fun other hother => hnone other (List.mem_cons_of_mem _ hother)

/-- A change that keeps the path of a setting reaches the setting for this path and no other. -/
theorem find?_change (settings : Settings) (key : String)
    (hedit : ∀ setting, setting.path = path → (edit setting).path = path) :
    (settings.change path edit).find? key =
      if path = key then (settings.find? key).map edit else settings.find? key := by
  obtain ⟨project, files⟩ := settings
  simp only [find?, change]
  induction files with
  | nil => simp [changeSetting]
  | cons first rest ih =>
    rw [changeSetting]
    by_cases hfirst : first.path = path
    · rw [if_pos hfirst, List.find?_cons, List.find?_cons, hedit first hfirst, hfirst]
      by_cases hkey : path = key
      · simp [hkey]
      · have hbeq : (path == key) = false := beq_false_of_ne hkey
        rw [if_neg hkey, hbeq]
    · rw [if_neg hfirst, List.find?_cons, List.find?_cons, ih]
      by_cases hkey : first.path = key
      · have hother : path ≠ key := fun h => hfirst (hkey.trans h.symm)
        simp [hkey, hother]
      · have hbeq : (first.path == key) = false := beq_false_of_ne hkey
        rw [hbeq]

/-- Changes for different paths that keep the paths of settings can be made in any order. -/
theorem change_comm (settings : Settings) {key other : String} {edit edit' : AssetOptions → AssetOptions}
    (hkeys : key ≠ other) (hedit : ∀ setting, (edit setting).path = setting.path)
    (hedit' : ∀ setting, (edit' setting).path = setting.path) :
    (settings.change key edit).change other edit' = (settings.change other edit').change key edit := by
  obtain ⟨project, files⟩ := settings
  simp only [change, Settings.mk.injEq, true_and]
  induction files with
  | nil => rfl
  | cons first rest ih =>
    by_cases hkey : first.path = key
    · have hother : first.path ≠ other := fun h => hkeys (hkey.symm.trans h)
      have hedited : (edit first).path ≠ other := (hedit first).symm ▸ hother
      simp only [changeSetting, if_pos hkey, if_neg hother, if_neg hedited]
    · by_cases hother : first.path = other
      · have hedited : (edit' first).path ≠ key := (hedit' first).symm ▸ hkey
        simp only [changeSetting, if_neg hkey, if_pos hother, if_neg hedited]
      · simp only [changeSetting, if_neg hkey, if_neg hother, ih]

/-- The setting that is found for a path has this path. -/
theorem path_of_find? {settings : Settings} (hfind : settings.find? path = some setting) :
    setting.path = path := by
  have hfound := List.find?_some hfind
  exact beq_iff_eq.1 hfound

/-- A change that leaves the setting for its path as it is changes nothing. -/
theorem change_eq_self {settings : Settings}
    (hedit : ∀ setting, settings.find? path = some setting → edit setting = setting) :
    settings.change path edit = settings := by
  obtain ⟨project, files⟩ := settings
  simp only [change, Settings.mk.injEq, true_and]
  simp only [find?] at hedit
  induction files with
  | nil => rfl
  | cons first rest ih =>
    rw [changeSetting]
    by_cases hfirst : first.path = path
    · rw [if_pos hfirst, hedit first (by simp [hfirst])]
    · rw [if_neg hfirst, ih fun setting hfind => hedit setting (by simp [hfirst, hfind])]

/-- A change for a path without setting changes nothing. -/
theorem change_of_find?_eq_none {settings : Settings} (hnone : settings.find? path = none) :
    settings.change path edit = settings :=
  change_eq_self fun setting hfind => by rw [hnone] at hfind; cases hfind

/-- A change that keeps the path of its setting is made once and for all if it has nothing to do on what
it has made. -/
theorem change_change {settings : Settings} (hpath : ∀ setting, (edit setting).path = setting.path)
    (hedit : ∀ setting, edit (edit setting) = edit setting) :
    (settings.change path edit).change path edit = settings.change path edit := by
  refine change_eq_self fun setting hfind => ?_
  rw [find?_change settings path fun setting h => (hpath setting).trans h, if_pos rfl] at hfind
  obtain ⟨before, -, rfl⟩ := Option.map_eq_some_iff.1 hfind
  exact hedit before

/-- The paths for which there are settings. -/
def keys (settings : Settings) : List String :=
  settings.files.map (·.path)

/-- A setting is found exactly for the keys. -/
theorem isSome_find?_iff {settings : Settings} :
    (settings.find? path).isSome = true ↔ path ∈ settings.keys := by
  rw [find?, List.find?_isSome, keys, List.mem_map]
  simp only [beq_iff_eq]

/-- What was added is a key, and all others are as before. -/
theorem mem_keys_add {settings : Settings} :
    path ∈ (settings.add setting).keys ↔ path = setting.path ∨ path ∈ settings.keys := by
  by_cases hpath : path = setting.path
  · subst hpath
    refine iff_of_true ?_ (.inl rfl)
    rw [← isSome_find?_iff, find?_add]
    rfl
  · rw [← isSome_find?_iff, find?_add_of_ne _ _ fun h => hpath h.symm, isSome_find?_iff]
    simp [hpath]

/-- Removing a setting leaves all other keys. -/
theorem mem_keys_remove {settings : Settings} {key : String} (hother : path ≠ key)
    (hmem : path ∈ settings.keys) : path ∈ (settings.remove key).keys := by
  obtain ⟨setting, hsetting, rfl⟩ := List.mem_map.1 hmem
  refine List.mem_map_of_mem ?_
  rw [remove, List.mem_eraseP_of_neg (by simpa using hother)]
  exact hsetting

/-- Changing a setting leaves a key if the change keeps the path of its setting. -/
theorem mem_keys_change {settings : Settings} {key : String}
    (hedit : path = key → ∀ setting, setting.path = path → (edit setting).path = path)
    (hmem : path ∈ settings.keys) : path ∈ (settings.change key edit).keys := by
  obtain ⟨project, files⟩ := settings
  simp only [keys, change] at hmem ⊢
  induction files with
  | nil => cases hmem
  | cons first rest ih =>
    rw [changeSetting]
    rw [List.map_cons, List.mem_cons] at hmem
    split
    · rename_i hfirst
      rw [List.map_cons, List.mem_cons]
      rcases hmem with hpath | hrest
      · exact .inl (hedit (hpath.trans hfirst) first hpath.symm).symm
      · exact .inr hrest
    · rw [List.map_cons, List.mem_cons]
      exact hmem.imp_right ih

/-- A change that keeps the path of its setting keeps all keys in their order. -/
theorem keys_change (settings : Settings)
    (hedit : ∀ setting, setting.path = path → (edit setting).path = path) :
    (settings.change path edit).keys = settings.keys := by
  obtain ⟨project, files⟩ := settings
  simp only [keys, change]
  induction files with
  | nil => rfl
  | cons first rest ih =>
    rw [changeSetting]
    split
    · rename_i hfirst
      rw [List.map_cons, List.map_cons, hedit first hfirst, hfirst]
    · rw [List.map_cons, List.map_cons, ih]

/-- A setting that is added for a key takes the place of the setting for it, and otherwise the last
place. -/
theorem keys_add (settings : Settings) (setting : AssetOptions) :
    (settings.add setting).keys =
      if setting.path ∈ settings.keys then settings.keys else settings.keys ++ [setting.path] := by
  obtain ⟨project, files⟩ := settings
  change (putSetting setting files).map (·.path) =
    if setting.path ∈ files.map (·.path) then files.map (·.path)
    else files.map (·.path) ++ [setting.path]
  induction files with
  | nil => rfl
  | cons first rest ih =>
    by_cases hfirst : first.path = setting.path
    · rw [putSetting, if_pos hfirst, if_pos (by simp [hfirst]), List.map_cons, List.map_cons, hfirst]
    · by_cases hrest : setting.path ∈ rest.map (·.path)
      · have hmem : setting.path ∈ (first :: rest).map (·.path) := List.mem_cons_of_mem _ hrest
        rw [if_pos hrest] at ih
        rw [putSetting, if_neg hfirst, if_pos hmem, List.map_cons, ih, List.map_cons]
      · have habsent : setting.path ∉ (first :: rest).map (·.path) :=
          List.not_mem_cons_of_ne_of_not_mem (fun h => hfirst h.symm) hrest
        rw [if_neg hrest] at ih
        rw [putSetting, if_neg hfirst, if_neg habsent, List.map_cons, ih, List.map_cons,
          List.cons_append]

/-- Of different keys the removed one goes, and the others stay in their order. -/
theorem keys_remove {settings : Settings} (hdistinct : settings.keys.Nodup) (path : String) :
    (settings.remove path).keys = settings.keys.filter (· ≠ path) := by
  have herase : (settings.remove path).keys = settings.keys.erase path := by
    rw [keys, keys, remove, List.erase_eq_eraseP', List.eraseP_map]
    rfl
  rw [herase, hdistinct.erase_eq_filter]
  exact List.filter_congr fun key _ => by rw [decide_not]; rfl

/-- There are no backslashes in a key. -/
theorem notMem_keyOf (path : String) : '\\' ∉ (keyOf path).toList := by
  have hchars : '\\' ∉ path.toList.map fun c => if c = '\\' then '/' else c := by
    intro hmem
    obtain ⟨c, -, hc⟩ := List.mem_map.1 hmem
    split at hc
    · exact absurd hc (by decide)
    · contradiction
  unfold keyOf
  split
  · rename_i rest hsplit
    rw [hsplit] at hchars
    rw [String.toList_ofList]
    exact fun hmem => hchars (List.mem_cons_of_mem _ (List.mem_cons_of_mem _ hmem))
  · rw [String.toList_ofList]
    exact hchars

/-- A key is its own key unless it starts with a step into the directory itself. -/
theorem keyOf_keyOf_eq_iff (path : String) :
    keyOf (keyOf path) = keyOf path ↔ ¬ ['.', '/'] <+: (keyOf path).toList := by
  have habsent := notMem_keyOf path
  generalize keyOf path = key at habsent ⊢
  have hchars : (key.toList.map fun c => if c = '\\' then '/' else c) = key.toList := by
    refine (List.map_congr_left fun c hc => ?_).trans (List.map_id _)
    have hother : c ≠ '\\' := fun h => habsent (h ▸ hc)
    rw [if_neg hother, id]
  unfold keyOf
  rw [hchars]
  split
  · rename_i rest hsplit
    refine iff_of_false (fun heq => ?_) fun hno => hno ⟨rest, hsplit.symm⟩
    have hlength := congrArg (fun text => text.toList.length) heq
    simp only [String.toList_ofList, hsplit, List.length_cons] at hlength
    omega
  · rename_i hother
    refine iff_of_true String.ofList_toList ?_
    rintro ⟨rest, hrest⟩
    exact hother rest hrest.symm

end UxmlBindings.Settings
