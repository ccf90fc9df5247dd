import AccessRules.Json.Reader
import AccessRules.Proofs.Value.Places

/-! No value that is read from JSON has a key twice. A field takes the place of the one with its
key, so each token keeps the keys of the open objects distinct, and the value of a whole text has
distinct keys at every depth. -/

namespace AccessRules

/-! ### Fields -/

namespace Document

variable {d : Document} {key : String} {value : Value}

theorem keys_cons (entry : String × Value) (d : Document) :
    keys (entry :: d) = entry.1 :: d.keys := rfl

theorem insert_cons (entry : String × Value) (d : Document) (key : String) (value : Value) :
    insert (entry :: d) key value =
      if entry.1 = key then (entry.1, value) :: d else entry :: d.insert key value := by
  simp only [insert, beq_iff_eq]

theorem keys_insert :
    (d.insert key value).keys = if key ∈ d.keys then d.keys else d.keys ++ [key] := by
  induction d with
  | nil => rfl
  | cons entry d ih =>
    rw [insert_cons, keys_cons]
    split
    case isTrue here => simp [here, keys_cons]
    case isFalse elsewhere =>
      have other : key ≠ entry.1 := fun eq => elsewhere eq.symm
      rw [keys_cons, ih]
      split
      case isTrue later => simp [later]
      case isFalse absent => simp [other, absent]

theorem nodup_keys_insert (distinct : d.keys.Nodup) : (d.insert key value).keys.Nodup := by
  rw [keys_insert]
  split
  case isTrue => exact distinct
  case isFalse fresh =>
    have apart : ∀ k ∈ d.keys, k ≠ key := fun k mem eq => fresh (eq ▸ mem)
    simpa [List.nodup_append] using ⟨distinct, apart⟩

theorem mem_insert {entry : String × Value} (h : entry ∈ d.insert key value) :
    entry ∈ d ∨ entry.2 = value := by
  induction d with
  | nil => exact .inr (by rw [List.mem_singleton.mp h])
  | cons first d ih =>
    rw [insert_cons] at h
    split at h
    · rcases List.mem_cons.mp h with rfl | later
      · exact .inr rfl
      · exact .inl (List.mem_cons_of_mem _ later)
    · rcases List.mem_cons.mp h with rfl | later
      · exact .inl List.mem_cons_self
      · exact (ih later).imp_left (List.mem_cons_of_mem _)

end Document

theorem Value.HasDistinctKeys.insert {d : Document} {value : Value}
    (h : (Value.object d).HasDistinctKeys) (key : String) (hv : value.HasDistinctKeys) :
    (Value.object (d.insert key value)).HasDistinctKeys := by
  cases h with
  | object distinct parts =>
    refine .object (Document.nodup_keys_insert distinct) fun entry mem => ?_
    rcases Document.mem_insert mem with old | new
    · exact parts entry old
    · rwa [new]

namespace Json

/-! ### Tokens -/

/-- No key occurs twice in what is there of a list or an object. -/
def Frame.HasDistinctKeys : Frame → Prop
  | list items => ∀ v ∈ items, v.HasDistinctKeys
  | object fields _ => (Value.object fields).HasDistinctKeys

namespace Progress

/-- No key occurs twice in what is there of the open lists and objects, nor in a finished value. -/
structure HasDistinctKeys (p : Progress) : Prop where
  frames : ∀ frame ∈ p.frames, frame.HasDistinctKeys
  done : ∀ v, p.expect = .done v → v.HasDistinctKeys

variable {frames : List Frame} {t : Token} {p next : Progress}

theorem hasDistinctKeys_complete {v : Value} (hv : v.HasDistinctKeys)
    (h : ∀ frame ∈ frames, frame.HasDistinctKeys) : (complete v frames).HasDistinctKeys := by
  cases frames with
  | nil => exact ⟨h, by rintro w ⟨⟩; exact hv⟩
  | cons frame frames =>
    obtain ⟨inner, outer⟩ := List.forall_mem_cons.mp h
    cases frame with
    | list items =>
      have items' : Frame.HasDistinctKeys (.list (v :: items)) :=
        List.forall_mem_cons.mpr ⟨hv, inner⟩
      exact ⟨List.forall_mem_cons.mpr ⟨items', outer⟩, by simp [complete]⟩
    | object fields key =>
      have fields' : Frame.HasDistinctKeys (.object (fields.insert key v) key) :=
        Value.HasDistinctKeys.insert inner key hv
      exact ⟨List.forall_mem_cons.mpr ⟨fields', outer⟩, by simp [complete]⟩

theorem hasDistinctKeys_enter {frame : Frame} {expect : Expect} (fresh : frame.HasDistinctKeys)
    (h : ∀ frame ∈ frames, frame.HasDistinctKeys) (unfinished : ∀ v, expect ≠ .done v)
    (entered : enter frame expect frames = some next) : next.HasDistinctKeys := by
  unfold enter at entered
  split at entered
  · obtain rfl := Option.some.inj entered
    exact ⟨List.forall_mem_cons.mpr ⟨fresh, h⟩, fun v done => absurd done (unfinished v)⟩
  · cases entered

theorem hasDistinctKeys_begin? (h : ∀ frame ∈ frames, frame.HasDistinctKeys)
    (begun : begin? frames t = some next) : next.HasDistinctKeys := by
  have scalar {v : Value} (hv : v.HasDistinctKeys) (begun : some (complete v frames) = some next) :
      next.HasDistinctKeys := by
    obtain rfl := Option.some.inj begun
    exact hasDistinctKeys_complete hv h
  unfold begin? at begun
  split at begun
  case h_1 =>
    have fresh : Frame.HasDistinctKeys (.object [] "") :=
      .object .nil (List.forall_mem_nil _)
    exact hasDistinctKeys_enter fresh h (by simp) begun
  case h_2 =>
    have fresh : Frame.HasDistinctKeys (.list []) := List.forall_mem_nil _
    exact hasDistinctKeys_enter fresh h (by simp) begun
  case h_3 s => exact scalar (.text s) begun
  case h_4 => exact scalar .null begun
  case h_5 => exact scalar (.bool true) begun
  case h_6 => exact scalar (.bool false) begun
  case h_7 =>
    obtain ⟨n, -, rfl⟩ := Option.map_eq_some_iff.mp begun
    exact hasDistinctKeys_complete (.number n) h
  case h_8 => cases begun

theorem hasDistinctKeys_close? (h : ∀ frame ∈ frames, frame.HasDistinctKeys)
    (closed : close? frames t = some next) : next.HasDistinctKeys := by
  unfold close? at closed
  split at closed
  case h_1 items frames =>
    obtain ⟨inner, outer⟩ := List.forall_mem_cons.mp h
    obtain rfl := Option.some.inj closed
    exact hasDistinctKeys_complete (.list fun v mem => inner v (List.mem_reverse.mp mem)) outer
  case h_2 fields key frames =>
    obtain ⟨inner, outer⟩ := List.forall_mem_cons.mp h
    obtain rfl := Option.some.inj closed
    exact hasDistinctKeys_complete inner outer
  case h_3 => cases closed

theorem hasDistinctKeys_key? (h : ∀ frame ∈ frames, frame.HasDistinctKeys)
    (read : key? frames t = some next) : next.HasDistinctKeys := by
  unfold key? at read
  split at read
  case h_1 fields previous frames key =>
    obtain ⟨inner, outer⟩ := List.forall_mem_cons.mp h
    obtain rfl := Option.some.inj read
    have inner' : Frame.HasDistinctKeys (.object fields key) := inner
    exact ⟨List.forall_mem_cons.mpr ⟨inner', outer⟩, by simp⟩
  case h_2 => cases read

theorem HasDistinctKeys.step (h : p.HasDistinctKeys) (step : p.step t = some next) :
    next.HasDistinctKeys := by
  obtain ⟨frames, expect⟩ := p
  have frames' := h.frames
  cases expect with
  | value => exact hasDistinctKeys_begin? frames' step
  | firstItem =>
    simp only [Progress.step] at step
    split at step
    · exact hasDistinctKeys_close? frames' step
    · exact hasDistinctKeys_begin? frames' step
  | firstKey =>
    simp only [Progress.step] at step
    split at step
    · exact hasDistinctKeys_close? frames' step
    · exact hasDistinctKeys_key? frames' step
  | key => exact hasDistinctKeys_key? frames' step
  | colon =>
    simp only [Progress.step] at step
    split at step
    · obtain rfl := Option.some.inj step
      exact ⟨frames', by simp⟩
    · cases step
  | next =>
    simp only [Progress.step] at step
    split at step
    · split at step
      · obtain rfl := Option.some.inj step
        exact ⟨frames', by simp⟩
      · obtain rfl := Option.some.inj step
        exact ⟨frames', by simp⟩
      · cases step
    · exact hasDistinctKeys_close? frames' step
  | done v => cases step

theorem HasDistinctKeys.run {tokens : List Token} (h : p.HasDistinctKeys)
    (run : tokens.foldlM Progress.step p = some next) : next.HasDistinctKeys := by
  induction tokens generalizing p with
  | nil =>
    obtain rfl := Option.some.inj run
    exact h
  | cons t rest ih =>
    rw [List.foldlM_cons] at run
    obtain ⟨middle, first, run⟩ := Option.bind_eq_some_iff.mp run
    exact ih (h.step first) run

end Progress

/-- A value that is read has distinct keys. -/
theorem hasDistinctKeys_of_read? {text : String} {v : Value} (h : read? text = some v) :
    v.HasDistinctKeys := by
  obtain ⟨tokens, -, run⟩ := Option.bind_eq_some_iff.mp h
  obtain ⟨last, run, finished⟩ := Option.bind_eq_some_iff.mp run
  have start : Progress.HasDistinctKeys ⟨[], .value⟩ := ⟨List.forall_mem_nil _, by simp⟩
  have ends := start.run run
  split at finished
  case h_1 w done =>
    obtain rfl := Option.some.inj finished
    exact ends.done w done
  case h_2 => cases finished

end Json

end AccessRules
