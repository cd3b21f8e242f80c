import Pinout.Foundation.Entries
import Pinout.Rap.PendingStore

/-! # A coherent store of calls

The objects in memory, the map of them and the journal agree on which call lies under a key and under
which key it is invoked on the daemon, through every operation of the store and through a restart. -/

namespace Pinout.Rap

open Foundation

/-- Which call a record is of, and the key under which it is invoked. -/
def PendingCallRecord.identity (platform : Platform) (r : PendingCallRecord) : CallId × JsString :=
  (r.callId, r.idempotencyKey platform)

/-- A recorded result was computed for the call of the record. -/
def PendingCallRecord.Honest (r : PendingCallRecord) : Prop :=
  r.resultText ≠ none → r.computedFor = some r.callId

theorem PendingCallRecord.key_eq {platform : Platform} {r r' : PendingCallRecord}
    (h : r'.identity platform = r.identity platform) : r'.key = r.key :=
  congrArg (fun identity : CallId × JsString => rapCallIdempotencyKey identity.1) h

namespace PendingStore

variable {platform : Platform} {s s' s'' : PendingStore} {n : Nat} {r : PendingCallRecord}

/-- The journal has a call under its key, which is invoked under the given one. -/
def Holds (platform : Platform) (s : PendingStore) (callId : CallId) (idempotencyKey : JsString) : Prop :=
  ∃ r, s.journal.get? (rapCallIdempotencyKey callId) = some r ∧ r.identity platform = (callId, idempotencyKey)

structure Coherent (platform : Platform) (s : PendingStore) : Prop where
  /-- What the journal has under the key of an object is of the same call. -/
  recorded : ∀ r ∈ s.objects, ∃ r', s.journal.get? r.key = some r' ∧ r'.identity platform = r.identity platform
  keyed : ∀ key r, s.journal.get? key = some r → r.key = key ∧ r.Honest
  called : ∀ key r, s.journal.get? key = some r → ∃ n, s.calls.get? key = some n
  named : ∀ key n, s.calls.get? key = some n → ∃ r, s.objects[n]? = some r ∧ r.key = key
  honest : ∀ r ∈ s.objects, r.Honest

/-- A store that a coherent one becomes: no call is lost, and objects stay of their call. -/
structure Keeps (platform : Platform) (s s' : PendingStore) : Prop where
  coherent : s'.Coherent platform
  holds : ∀ callId key, s.Holds platform callId key → s'.Holds platform callId key
  objects : ∀ (n : Nat) r, s.objects[n]? = some r →
    ∃ r', s'.objects[n]? = some r' ∧ r'.identity platform = r.identity platform

theorem Keeps.trans (h : s.Keeps platform s') (h' : s'.Keeps platform s'') : s.Keeps platform s'' where
  coherent := h'.coherent
  holds callId key hs := h'.holds callId key (h.holds callId key hs)
  objects n r hr := by
    obtain ⟨r', hr', heq⟩ := h.objects n r hr
    obtain ⟨r'', hr'', heq'⟩ := h'.objects n r' hr'
    exact ⟨r'', hr'', heq'.trans heq⟩

theorem Coherent.refl (h : s.Coherent platform) : s.Keeps platform s :=
  ⟨h, fun _ _ hs => hs, fun _ r hr => ⟨r, hr, rfl⟩⟩

theorem Coherent.identity_eq (h : s.Coherent platform) {r' : PendingCallRecord} (hr : r ∈ s.objects)
    (hr' : r' ∈ s.objects) (hkey : r.key = r'.key) : r.identity platform = r'.identity platform := by
  obtain ⟨q, hq, heq⟩ := h.recorded r hr
  obtain ⟨q', hq', heq'⟩ := h.recorded r' hr'
  rw [hkey, hq'] at hq
  obtain rfl := Option.some.inj hq
  exact heq.symm.trans heq'

theorem Coherent.key_of_getCall (h : s.Coherent platform) {key : JsString}
    (hcall : s.getCall key = some (n, r)) : s.objects[n]? = some r ∧ r.key = key := by
  obtain ⟨m, hm, hcall⟩ := Option.bind_eq_some_iff.mp hcall
  obtain ⟨q, hq, heq⟩ := Option.map_eq_some_iff.mp hcall
  obtain ⟨rfl, rfl⟩ := Prod.mk.inj heq
  obtain ⟨q', hq', hkey⟩ := h.named key m hm
  rw [hq] at hq'
  obtain rfl := Option.some.inj hq'
  exact ⟨hq, hkey⟩

theorem Coherent.journal_of_getCall (h : s.Coherent platform) {key : JsString} (hcall : s.getCall key = none) :
    s.journal.get? key = none := by
  cases hjournal : s.journal.get? key with
  | none => rfl
  | some q =>
    obtain ⟨m, hm⟩ := h.called key q hjournal
    obtain ⟨q', hq', -⟩ := h.named key m hm
    rw [getCall, hm, Option.bind_some, hq'] at hcall
    cases hcall

theorem Coherent.modify (h : s.Coherent platform) {f : PendingCallRecord → PendingCallRecord}
    (hf : ∀ r, s.objects[n]? = some r → (f r).identity platform = r.identity platform ∧ (f r).Honest) :
    s.Keeps platform (s.modify n f) := by
  -- an object of the new store was one of the old, or is the one that changed
  have hold : ∀ r' ∈ (s.modify n f).objects, ∃ r ∈ s.objects,
      r'.identity platform = r.identity platform ∧ r'.Honest := by
    intro r' hr'
    obtain ⟨m, hm⟩ := List.getElem?_of_mem hr'
    rcases getElem?_modify_eq_some hm with ⟨-, hr⟩ | ⟨rfl, r, hr, rfl⟩
    · exact ⟨r', List.mem_of_getElem? hr, rfl, h.honest r' (List.mem_of_getElem? hr)⟩
    · exact ⟨r, List.mem_of_getElem? hr, hf r hr⟩
  have hobjects : ∀ (m : Nat) r, s.objects[m]? = some r →
      ∃ r', (s.modify n f).objects[m]? = some r' ∧ r'.identity platform = r.identity platform := by
    intro m r hr
    by_cases hm : n = m
    · subst hm
      exact ⟨f r, getElem?_modify_self f hr, (hf r hr).1⟩
    · exact ⟨r, (getElem?_modify_of_ne f hm).trans hr, rfl⟩
  refine ⟨⟨?_, h.keyed, h.called, ?_, ?_⟩, fun _ _ hs => hs, hobjects⟩
  · intro r' hr'
    obtain ⟨r, hr, heq, -⟩ := hold r' hr'
    obtain ⟨q, hq, hqr⟩ := h.recorded r hr
    exact ⟨q, (PendingCallRecord.key_eq heq).symm ▸ hq, hqr.trans heq.symm⟩
  · intro key m hm
    obtain ⟨r, hr, hkey⟩ := h.named key m hm
    obtain ⟨r', hr', heq⟩ := hobjects m r hr
    exact ⟨r', hr', (PendingCallRecord.key_eq heq).trans hkey⟩
  · intro r' hr'
    obtain ⟨-, -, -, hhonest⟩ := hold r' hr'
    exact hhonest

/-- A record is appended to the journal, of an object that may be new. -/
theorem Coherent.record (h : s.Coherent platform) {objects : List PendingCallRecord}
    {calls : InsertionMap JsString Nat} (hkept : ∀ (m : Nat) q, s.objects[m]? = some q → objects[m]? = some q)
    (hmem : ∀ q ∈ objects, q ∈ s.objects ∨ q = r) (hr : objects[n]? = some r) (hhonest : r.Honest)
    (hidentity : ∀ q, s.journal.get? r.key = some q → q.identity platform = r.identity platform)
    (hcalls : ∀ key m, calls.get? key = some m → s.calls.get? key = some m ∨ key = r.key ∧ m = n)
    (hcalled : ∀ key m, key = r.key ∨ s.calls.get? key = some m → ∃ m', calls.get? key = some m') :
    s.Keeps platform ⟨objects, calls, s.journal.insert r.key r⟩ := by
  refine ⟨⟨?_, ?_, ?_, ?_, ?_⟩, ?_, fun m q hq => ⟨q, hkept m q hq, rfl⟩⟩
  · intro q hq
    by_cases hkey : q.key = r.key
    · refine ⟨r, by rw [hkey, InsertionMap.get?_insert_self], ?_⟩
      rcases hmem q hq with hq | rfl
      · obtain ⟨q', hq', heq⟩ := h.recorded q hq
        exact (hidentity q' (hkey ▸ hq')).symm.trans heq
      · rfl
    · rcases hmem q hq with hq | rfl
      · rw [InsertionMap.get?_insert_of_ne _ _ hkey]
        exact h.recorded q hq
      · exact absurd rfl hkey
  · intro key q hq
    rw [InsertionMap.get?_insert] at hq
    split at hq
    · next hkey =>
      obtain rfl := Option.some.inj hq
      exact ⟨hkey.symm, hhonest⟩
    · exact h.keyed key q hq
  · intro key q hq
    rw [InsertionMap.get?_insert] at hq
    split at hq
    · next hkey => exact hcalled key 0 (.inl hkey)
    · obtain ⟨m, hm⟩ := h.called key q hq
      exact hcalled key m (.inr hm)
  · intro key m hm
    rcases hcalls key m hm with hm | ⟨rfl, rfl⟩
    · obtain ⟨q, hq, hkey⟩ := h.named key m hm
      exact ⟨q, hkept m q hq, hkey⟩
    · exact ⟨r, hr, rfl⟩
  · intro q hq
    rcases hmem q hq with hq | rfl
    · exact h.honest q hq
    · exact hhonest
  · rintro callId key ⟨q, hq, heq⟩
    by_cases hkey : rapCallIdempotencyKey callId = r.key
    · refine ⟨r, by rw [hkey, InsertionMap.get?_insert_self], ?_⟩
      exact (hidentity q (hkey ▸ hq)).symm.trans heq
    · exact ⟨q, by rw [InsertionMap.get?_insert_of_ne _ _ hkey]; exact hq, heq⟩

theorem get?_insert_cases {calls : InsertionMap JsString Nat} {key k : JsString} {m : Nat}
    (h : (calls.insert k n).get? key = some m) : calls.get? key = some m ∨ key = k ∧ m = n := by
  rw [InsertionMap.get?_insert] at h
  split at h
  · next hkey => exact .inr ⟨hkey, (Option.some.inj h).symm⟩
  · exact .inl h

theorem exists_get?_insert {calls : InsertionMap JsString Nat} {key k : JsString} {m : Nat}
    (h : key = k ∨ calls.get? key = some m) : ∃ m', (calls.insert k n).get? key = some m' := by
  rw [InsertionMap.get?_insert]
  split
  · exact ⟨n, rfl⟩
  · next hne => exact ⟨m, h.resolve_left hne⟩

theorem Coherent.upsertCall (h : s.Coherent platform) (n : Nat) : s.Keeps platform (s.upsertCall n) := by
  rw [PendingStore.upsertCall]
  split
  · next r hr =>
    have hmem := List.mem_of_getElem? hr
    refine h.record (fun _ _ hq => hq) (fun _ hq => .inl hq) hr (h.honest r hmem) ?_
      (fun _ _ hm => get?_insert_cases hm) fun _ _ hkey => exists_get?_insert hkey
    intro q hq
    obtain ⟨q', hq', heq⟩ := h.recorded r hmem
    rw [hq] at hq'
    obtain rfl := Option.some.inj hq'
    exact heq
  · exact h.refl

/-- A new object is stored, of the call that lies under its key if there is one. -/
theorem Coherent.register (h : s.Coherent platform) (hhonest : r.Honest)
    (hidentity : ∀ q, s.journal.get? r.key = some q → q.identity platform = r.identity platform) :
    s.Keeps platform (({ s with objects := s.objects ++ [r] } : PendingStore).upsertCall s.objects.length) := by
  have hr : (s.objects ++ [r])[s.objects.length]? = some r := List.getElem?_concat_length
  rw [PendingStore.upsertCall]
  dsimp only
  rw [hr]
  refine h.record (fun _ _ hq => getElem?_append_of_eq_some _ hq) ?_ hr hhonest hidentity
    (fun _ _ hm => get?_insert_cases hm) fun _ _ hkey => exists_get?_insert hkey
  intro q hq
  rcases List.mem_append.mp hq with hq | hq
  · exact .inl hq
  · exact .inr (List.mem_singleton.mp hq)

theorem Coherent.compact (h : s.Coherent platform) : s.Keeps platform s.compact := by
  -- the fold goes over entries of the map, which stays as it is
  rw [PendingStore.compact]
  refine (List.foldlRecOn (motive := fun t => s.Keeps platform t ∧ t.calls = s.calls) _ _ ⟨h.refl, rfl⟩
    fun t ht entry hin => ?_).1
  obtain ⟨hkept, hcalls⟩ := ht
  have h := hkept.coherent
  have hentry : t.calls.get? entry.1 = some entry.2 := by
    rw [hcalls]
    exact InsertionMap.get?_eq_some_iff.mpr hin
  obtain ⟨r, hr, hkey⟩ := h.named _ _ hentry
  rw [hr]
  have hmem := List.mem_of_getElem? hr
  have hkeeps : t.Keeps platform { t with journal := t.journal.insert r.key r } := by
    refine h.record (fun _ _ hq => hq) (fun _ hq => .inl hq) hr (h.honest r hmem) ?_
      (fun _ _ hm => .inl hm) ?_
    · intro q hq
      obtain ⟨q', hq', heq⟩ := h.recorded r hmem
      rw [hq] at hq'
      obtain rfl := Option.some.inj hq'
      exact heq
    · rintro key m (rfl | hm)
      · exact ⟨entry.2, hkey ▸ hentry⟩
      · exact ⟨m, hm⟩
  rw [hkey] at hkeeps
  exact ⟨hkept.trans hkeeps, hcalls⟩

/-- A new process over the journal of a coherent store has a coherent one. -/
theorem Coherent.load (h : s.Coherent platform) : (PendingStore.load s.journal).Coherent platform := by
  have hget : ∀ key n, (PendingStore.load s.journal).calls.get? key = some n ↔
      (s.journal.entries.map Prod.fst)[n]? = some key := by
    intro key n
    rw [InsertionMap.get?_eq_some_iff]
    exact List.mem_zipIdx_iff_getElem?
  -- an object is what the journal has under its key
  have hobject : ∀ r ∈ (PendingStore.load s.journal).objects, s.journal.get? r.key = some r ∧ r.Honest := by
    intro r hr
    obtain ⟨⟨key, q⟩, hentry, rfl⟩ := List.mem_map.mp hr
    have hq := InsertionMap.get?_eq_some_iff.mpr hentry
    obtain ⟨hkey, hhonest⟩ := h.keyed key q hq
    exact ⟨hkey.symm ▸ hq, hhonest⟩
  refine ⟨fun r hr => ⟨r, (hobject r hr).1, rfl⟩, h.keyed, ?_, ?_, fun r hr => (hobject r hr).2⟩
  · intro key r hr
    have hentry := InsertionMap.get?_eq_some_iff.mp hr
    obtain ⟨n, hn⟩ := List.getElem?_of_mem (List.mem_map_of_mem (f := Prod.fst) hentry)
    exact ⟨n, (hget key n).mpr hn⟩
  · intro key n hn
    have hn := (hget key n).mp hn
    rw [List.getElem?_map] at hn
    obtain ⟨⟨k, q⟩, hentry, rfl⟩ := Option.map_eq_some_iff.mp hn
    refine ⟨q, ?_, (h.keyed k q (InsertionMap.get?_eq_some_iff.mpr (List.mem_of_getElem? hentry))).1⟩
    exact (List.getElem?_map ..).trans (by rw [hentry]; rfl)

end PendingStore

end Pinout.Rap
