import Mathlib.Data.List.Basic
import UxmlBindings.Proofs.Settings.Entries

/-!
# Settings as a map

The settings of files are a list that is searched from the front. As long as no two of them have the
same path, this list is a map from paths to settings whose keys are in order: every operation assigns
a setting, or none, to one path. `Assigned` says what such an assignment leaves of a map and of the
order of its keys, and there is one lemma for each operation.
-/

namespace UxmlBindings.Settings

/-- Keys after one of them was given a setting, or none. A key that is there stays in its place, and a
new one comes last. -/
def keysAfter (keys : List String) (path : String) : Option AssetOptions → List String
  | some _ => if path ∈ keys then keys else keys ++ [path]
  | none => keys.filter (· ≠ path)

/-- Settings in which a path was given a setting, or none, and nothing else. -/
structure Assigned (before after : Settings) (path : String) (setting? : Option AssetOptions) :
    Prop where
  found : after.find? path = setting?
  others : ∀ other, other ≠ path → after.find? other = before.find? other
  order : after.keys = keysAfter before.keys path setting?

variable {settings before after : Settings} {path : String} {setting? : Option AssetOptions}

/-- No setting is found for a path that is no key. -/
theorem find?_eq_none_iff : settings.find? path = none ↔ path ∉ settings.keys := by
  rw [← isSome_find?_iff, Bool.not_eq_true, Option.isSome_eq_false_iff, Option.isNone_iff_eq_none]

/-- Removing a setting changes nothing for other paths. -/
theorem find?_remove_of_ne (settings : Settings) {other : String} (hother : other ≠ path) :
    (settings.remove path).find? other = settings.find? other := by
  obtain ⟨project, files⟩ := settings
  simp only [find?, remove]
  induction files with
  | nil => rfl
  | cons first rest ih =>
    by_cases hfirst : first.path = path
    · have hskip : (first.path == other) = false := beq_false_of_ne (hfirst ▸ hother.symm)
      rw [List.eraseP_cons_of_pos (by simpa using hfirst), List.find?_cons, hskip]
    · rw [List.eraseP_cons_of_neg (by simpa using hfirst), List.find?_cons, List.find?_cons, ih]

/-- Removing a setting that is not there changes nothing. -/
theorem remove_of_find?_eq_none (hnone : settings.find? path = none) :
    settings.remove path = settings := by
  rw [remove, List.eraseP_of_forall_not (List.find?_eq_none.1 hnone)]

/-- Keys stay as they are if a path is given a setting exactly if it has one. -/
theorem keysAfter_eq_self {setting? : Option AssetOptions}
    (hsame : setting?.isSome = (settings.find? path).isSome) :
    keysAfter settings.keys path setting? = settings.keys := by
  cases setting? with
  | some setting => exact if_pos (isSome_find?_iff.1 hsame.symm)
  | none =>
    have habsent : path ∉ settings.keys := fun hmem => by
      rw [isSome_find?_iff.2 hmem] at hsame
      cases hsame
    exact List.filter_eq_self.2 fun key hkey => decide_eq_true fun heq => habsent (heq ▸ hkey)

/-- To leave settings as they are means to give a path the setting that it has. -/
theorem assigned_self (settings : Settings) (path : String) :
    Assigned settings settings path (settings.find? path) where
  found := rfl
  others _ _ := rfl
  order := (keysAfter_eq_self rfl).symm

/-- Adding a setting gives it to its path. -/
theorem assigned_add (settings : Settings) (setting : AssetOptions) :
    Assigned settings (settings.add setting) setting.path (some setting) where
  found := find?_add settings setting
  others _ hother := find?_add_of_ne settings setting hother.symm
  order := keys_add settings setting

/-- Removing the setting of a path leaves none there, if there were no two of them. -/
theorem assigned_remove (hdistinct : settings.keys.Nodup) (path : String) :
    Assigned settings (settings.remove path) path none where
  found := by
    rw [find?_eq_none_iff, keys_remove hdistinct, List.mem_filter]
    simp
  others _ hother := find?_remove_of_ne settings hother
  order := keys_remove hdistinct path

/-- A change that keeps the path gives the changed setting to it. -/
theorem assigned_change {edit : AssetOptions → AssetOptions} (settings : Settings)
    (hedit : ∀ setting, setting.path = path → (edit setting).path = path) :
    Assigned settings (settings.change path edit) path ((settings.find? path).map edit) where
  found := by rw [find?_change settings path hedit, if_pos rfl]
  others other hother := by rw [find?_change settings other hedit, if_neg hother.symm]
  order := by rw [keys_change settings hedit, keysAfter_eq_self Option.isSome_map]

/-- After an assignment the keys are as different as before. -/
theorem Assigned.distinct (hassigned : Assigned before after path setting?)
    (hdistinct : before.keys.Nodup) : after.keys.Nodup := by
  rw [hassigned.order]
  cases setting? with
  | none => exact hdistinct.filter _
  | some setting =>
    rw [keysAfter]
    split
    · exact hdistinct
    · rename_i habsent
      exact List.nodup_append.2 ⟨hdistinct, List.pairwise_singleton _ _, fun key hkey new hnew heq =>
        habsent (List.mem_singleton.1 hnew ▸ heq ▸ hkey)⟩

/-- Keys stay in their order, apart from one that is left without its setting. -/
theorem Assigned.sublist (hassigned : Assigned before after path setting?) {kept : String → Bool}
    (hkept : path ∈ before.keys → setting? = none → kept path = false) :
    (before.keys.filter kept).Sublist after.keys := by
  rw [hassigned.order]
  cases setting? with
  | none =>
    have hothers : before.keys.filter kept = (before.keys.filter (· ≠ path)).filter kept := by
      rw [List.filter_filter]
      refine List.filter_congr fun key hkey => ?_
      by_cases heq : key = path
      · rw [heq, hkept (heq ▸ hkey) rfl]
        rfl
      · rw [decide_eq_true heq, Bool.and_true]
    rw [keysAfter, hothers]
    exact List.filter_sublist
  | some setting =>
    rw [keysAfter]
    split
    · exact List.filter_sublist
    · exact List.filter_sublist.trans (List.sublist_append_left ..)

end UxmlBindings.Settings
