import Rtdp.Core.Protocol.Frame

/-!
# Iterating an extension area to its end

An iterator reaches `None` exactly on an area made of whole records. It yields
them in order, one item each; in front of anything else it stays, and yields the
same error again and again.
-/

namespace Rtdp

namespace ExtensionIterator

variable {it it' : ExtensionIterator}

/-- What the iterator has not passed yet. -/
def area (it : ExtensionIterator) : List UInt8 := it.data.drop it.offset

@[simp] theorem area_new (data : List UInt8) : (new data).area = data := rfl

theorem area_eq_nil_iff : it.area = [] ↔ it.data.length ≤ it.offset := List.drop_eq_nil_iff

/-- Calling `next` yields these items, one a call, and leaves the iterator `it'`. -/
def Steps : ExtensionIterator → List (Result HeaderExtension) → ExtensionIterator → Prop
  | it, [], it' => it' = it
  | it, item :: items, it' => ∃ mid, it.next = .ok (some item, mid) ∧ Steps mid items it'

/-- Calling `next` yields these items, and then `None`. -/
def Yields (it : ExtensionIterator) (items : List (Result HeaderExtension)) : Prop :=
  ∃ it', it.Steps items it' ∧ it'.next = .ok (none, it')

/-- However often `next` is called, it yields no error. -/
def OnlyOk (it : ExtensionIterator) : Prop :=
  ∀ items it', it.Steps items it' → ∀ item ∈ items, ∃ ext, item = .ok ext

theorem Steps.snoc {items : List (Result HeaderExtension)} {item : Result HeaderExtension}
    {last : ExtensionIterator} (h : it.Steps items it') (hnext : it'.next = .ok (some item, last)) :
    it.Steps (items ++ [item]) last := by
  induction items generalizing it with
  | nil =>
    obtain rfl : it' = it := h
    exact ⟨last, hnext, rfl⟩
  | cons first items ih =>
    obtain ⟨mid, hmid, hrest⟩ := h
    exact ⟨mid, hmid, ih hrest⟩

/-- Past the records in front of it, the iterator is at what follows them. -/
theorem steps_records {rest : List UInt8} (ts : List Tlv) (h : it.area = tlvCode.stream ts ++ rest) :
    ∃ it', it.Steps (ts.map fun t => .ok t.extension) it' ∧ it'.area = rest := by
  induction ts generalizing it with
  | nil => exact ⟨it, rfl, h⟩
  | cons t ts ih =>
    rw [PrefixCode.stream_cons, List.append_assoc] at h
    let mid : ExtensionIterator := { it with offset := it.offset + t.bytes.length }
    have hmid : mid.area = tlvCode.stream ts ++ rest := by
      change it.data.drop (it.offset + t.bytes.length) = _
      rw [← List.drop_drop]
      change it.area.drop _ = _
      rw [h]
      exact List.drop_left
    obtain ⟨it', hsteps, harea⟩ := ih hmid
    exact ⟨it', ⟨mid, next_tlv h, hsteps⟩, harea⟩

/-- **What an iteration that ends has seen**: whole records, one for each item. -/
theorem yields_iff {items : List (Result HeaderExtension)} :
    it.Yields items ↔
      ∃ ts : List Tlv, it.area = tlvCode.stream ts ∧ items = ts.map fun t => .ok t.extension := by
  constructor
  · rintro ⟨last, hsteps, hend⟩
    induction items generalizing it with
    | nil =>
      obtain rfl : last = it := hsteps
      rcases next_cases last with ⟨hdone, -⟩ | ⟨t, rest, -, hnext⟩ | ⟨-, -, detail, hnext⟩
      · exact ⟨[], area_eq_nil_iff.mpr hdone, rfl⟩
      · rw [hnext] at hend
        cases hend
      · rw [hnext] at hend
        cases hend
    | cons item items ih =>
      obtain ⟨mid, hmid, hrest⟩ := hsteps
      obtain ⟨ts, hts, hitems⟩ := ih hrest
      rcases next_cases it with ⟨-, hnext⟩ | ⟨t, rest, ht, hnext⟩ | ⟨hinside, hno, detail, hnext⟩
      · rw [hnext] at hmid
        cases hmid
      · rw [hnext] at hmid
        cases hmid
        refine ⟨t :: ts, ?_, by rw [hitems]; rfl⟩
        have hafter : it.data.drop (it.offset + t.bytes.length) = rest := by
          rw [← List.drop_drop, ht]
          exact List.drop_left
        exact ht.trans (congrArg _ (hafter.symm.trans hts))
      · -- an error leaves the iterator where no record starts: the rest cannot end
        rw [hnext] at hmid
        cases hmid
        cases ts with
        | nil =>
          have := area_eq_nil_iff.mp hts
          omega
        | cons t ts => exact absurd hts (hno t _)
  · rintro ⟨ts, hts, rfl⟩
    obtain ⟨last, hsteps, harea⟩ := steps_records ts (hts.trans (List.append_nil _).symm)
    exact ⟨last, hsteps, next_done (area_eq_nil_iff.mp harea)⟩

theorem onlyOk_of_stream {ts : List Tlv} (h : it.area = tlvCode.stream ts) : it.OnlyOk := by
  intro items it' hsteps
  induction items generalizing it ts with
  | nil => simp
  | cons item items ih =>
    obtain ⟨mid, hmid, hrest⟩ := hsteps
    cases ts with
    | nil =>
      rw [next_done (area_eq_nil_iff.mp h)] at hmid
      cases hmid
    | cons t ts =>
      have hfirst : it.area = tlvCode.stream [t] ++ tlvCode.stream ts := by
        rw [h]
        simp
      obtain ⟨mid', ⟨mid'', hnext, hend⟩, harea⟩ := steps_records [t] hfirst
      obtain rfl : mid' = mid'' := hend
      rw [hnext] at hmid
      cases hmid
      exact List.forall_mem_cons.mpr ⟨⟨_, rfl⟩, ih harea hrest⟩

/-- **No error is ever yielded** exactly in front of whole records. -/
theorem onlyOk_iff : it.OnlyOk ↔ tlvCode.Tiled (fun _ => True) it.area := by
  refine ⟨fun h => ?_, fun ⟨ts, _, hts⟩ => onlyOk_of_stream hts⟩
  rcases tlvCode.tiled_or_stuck (fun _ => True) it.area with tiled | ⟨rest, ts, -, hts, hne, hno⟩
  · exact tiled
  obtain ⟨it', hsteps, harea⟩ := steps_records ts hts
  have hinside : it'.offset < it'.data.length := by
    by_contra hge
    exact hne (harea ▸ area_eq_nil_iff.mpr (Nat.le_of_not_lt hge))
  obtain ⟨detail, hnext⟩ := next_malformed hinside
    fun t tail heq => hno t tail (harea.symm.trans heq) trivial
  obtain ⟨ext, hext⟩ := h _ _ (hsteps.snoc hnext) (.error (.malformed detail)) (by simp)
  cases hext

end ExtensionIterator

/-- **Iteration reaches `None`**, after at most a quarter as many items as there are bytes, exactly
on the areas made of whole records. -/
theorem iteration_ends_iff (data : List UInt8) :
    (∃ items, items.length ≤ data.length / 4 + 1 ∧ (ExtensionIterator.new data).Yields items) ↔
      tlvCode.Tiled (fun _ => True) data := by
  constructor
  · rintro ⟨items, -, hyields⟩
    obtain ⟨ts, hts, -⟩ := ExtensionIterator.yields_iff.mp hyields
    exact ⟨ts, fun _ _ => trivial, hts⟩
  · rintro ⟨ts, -, rfl⟩
    have hlen := length_le_stream ts
    exact ⟨_, by rw [List.length_map]; omega, ExtensionIterator.yields_iff.mpr ⟨ts, rfl, rfl⟩⟩

/-- One stray byte of an unvalidated frame: every call yields an error, and none reaches `None`. -/
theorem iteration_of_stray_byte_is_endless :
    ¬ ∃ items, items.length ≤ [(0 : UInt8)].length / 4 + 1 ∧
      (OwnedFrame.view { OwnedFrame.newData 1 1 0 9 [] with extensionBytes := [0] }).extensions.Yields items := by
  rintro ⟨items, -, hyields⟩
  obtain ⟨ts, hts, -⟩ := ExtensionIterator.yields_iff.mp hyields
  change [(0 : UInt8)] = tlvCode.stream ts at hts
  have hlen := length_le_stream ts
  rw [← hts, List.length_singleton] at hlen
  obtain rfl : ts = [] := List.length_eq_zero_iff.mp (by omega)
  cases hts

end Rtdp
