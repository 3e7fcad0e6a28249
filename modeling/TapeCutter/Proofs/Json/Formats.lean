import TapeCutter.Portal.Snapshot
import TapeCutter.Proofs.Json.Reading
import TapeCutter.Proofs.Json.Records
import TapeCutter.Settings.File

/-! The two formats of this machine, the settings file and the published status. Both are read
back from their texts, whatever numbers and characters they hold. -/
namespace TapeCutter

open Json

@[simp] theorem Address.ofJson?_toJson (address : Address) :
    ofJson? address.toJson = some address := by
  simp [toJson, bytes, ofJson?]

@[simp] theorem MenuSettings.ofJson?_toJson (menu : MenuSettings) :
    ofJson? menu.toJson = some menu := by
  rw [ofJson?, toJson, fields?_full (by decide : keys.Nodup) rfl]
  simp

@[simp] theorem StickSettings.ofJson?_toJson (stick : StickSettings) :
    ofJson? stick.toJson = some stick := by
  rw [ofJson?, toJson, fields?_full (by decide : keys.Nodup) rfl]
  simp

@[simp] theorem TimingSettings.ofJson?_toJson (timing : TimingSettings) :
    ofJson? timing.toJson = some timing := by
  rw [ofJson?, toJson, fields?_full (by decide : keys.Nodup) rfl]
  simp

@[simp] theorem NetworkSettings.ofJson?_toJson (network : NetworkSettings) :
    ofJson? network.toJson = some network := by
  rw [ofJson?, toJson, fields?_full (by decide : keys.Nodup) rfl]
  simp

namespace Settings

theorem ofJson?_toJson (settings : Settings) : ofJson? settings.toJson = some settings := by
  rw [ofJson?, toJson, fields?_full (by decide : keys.Nodup) rfl]
  simp

theorem ofText?_render (settings : Settings) : ofText? settings.render = some settings := by
  rw [ofText?, render, Json.ofText?_render]
  exact ofJson?_toJson settings

end Settings

namespace Portal.Snapshot

/-- A snapshot is read back whether it gives a progress or leaves the key out. -/
theorem ofJson?_toJson (snapshot : Snapshot) : ofJson? snapshot.toJson = some snapshot := by
  obtain ⟨resistorsPerKit, kits, runningClass, runningText, progress⟩ := snapshot
  cases progress with
  | none =>
      rw [ofJson?, toJson, fields?_record (by decide : keys.Nodup)]
      · simp [keys, progress?]
      · exact Nat.le_succ 4
  | some percent =>
      rw [ofJson?, toJson, fields?_full (by decide : keys.Nodup) rfl]
      simp [progress?]

theorem ofText?_render (snapshot : Snapshot) : ofText? snapshot.render = some snapshot := by
  rw [ofText?, render, Json.ofText?_render]
  exact ofJson?_toJson snapshot

/-- The members of a snapshot's text: the keys in their order, and the progress only where
there is one. -/
theorem map_fst_of_render (snapshot : Snapshot) :
    ∃ members, Json.ofText? snapshot.render = some (.object members) ∧
      members.map Prod.fst =
        (["resistorsPerKit", "kits", "runningClass", "runningText"] ++
          if snapshot.progress.isSome then ["progress"] else []).map some := by
  refine ⟨_, Json.ofText?_render snapshot.toJson, ?_⟩
  obtain ⟨resistorsPerKit, kits, runningClass, runningText, progress⟩ := snapshot
  cases progress <;> rfl

end Portal.Snapshot

/-- Settings and snapshots are read back from their texts, whatever they hold. The text of
either gives the keys in their order; the progress is among those of a snapshot exactly if the
snapshot has one. -/
theorem formats_read_back :
    (∀ settings : Settings,
      Settings.ofText? settings.render = some settings ∧
      ∃ members, Json.ofText? settings.render = some (.object members) ∧
        members.map Prod.fst = ["menu", "joystick", "timing", "portal"].map some) ∧
    ∀ snapshot : Portal.Snapshot,
      Portal.Snapshot.ofText? snapshot.render = some snapshot ∧
      ∃ members, Json.ofText? snapshot.render = some (.object members) ∧
        members.map Prod.fst =
          (["resistorsPerKit", "kits", "runningClass", "runningText"] ++
            if snapshot.progress.isSome then ["progress"] else []).map some ∧
        (some "progress" ∈ members.map Prod.fst ↔ snapshot.progress.isSome) := by
  refine ⟨fun settings => ⟨settings.ofText?_render, _, Json.ofText?_render settings.toJson, rfl⟩,
    fun snapshot => ⟨snapshot.ofText?_render, ?_⟩⟩
  obtain ⟨members, hText, hKeys⟩ := snapshot.map_fst_of_render
  refine ⟨members, hText, hKeys, ?_⟩
  rw [hKeys]
  cases snapshot.progress <;> simp

end TapeCutter
