import Throttle.Proofs.Memory.Bucket

/-!
# What is held

An entry of a memory expires, and only a sweep removes it.  A sweep leaves exactly what has not
expired, and does also what an earlier one would have done.  Nothing is entered that has expired
before it is entered, so what is held has not expired before the last sweep (`HeldSince`), and what
is held stays held until there is a sweep (`HeldIn`).
-/

namespace Throttle

namespace Memory

/-! ## One sweep -/

section

variable {α : Type} {memory : Memory α}

/-- The windows that are left are those that are not over. -/
theorem get?_windows_sweep_eq_some_iff {now : Instant} {key : String} {held : Window} :
    (memory.sweep now).windows.get? key = some held ↔
      memory.windows.get? key = some held ∧ now < held.expiresAt := by
  rw [get?_windows_sweep, Option.filter_eq_some_iff, decide_eq_true_iff]

/-- The buckets that are left are those that do not expire or have not yet. -/
theorem get?_buckets_sweep_eq_some_iff {now : Instant} {key : String} {held : Bucket α} :
    (memory.sweep now).buckets.get? key = some held ↔
      memory.buckets.get? key = some held ∧ ∀ full, held.expiresAt = some full → now < full := by
  rw [get?_buckets_sweep, Option.filter_eq_some_iff]
  refine and_congr_right fun _ => ?_
  cases held.expiresAt with
  | none => simp
  | some full => simp

/-- No entry is held that has expired before an instant. -/
structure HeldSince (tick : Instant) (memory : Memory α) : Prop where
  windows : ∀ key held, memory.windows.get? key = some held → tick ≤ held.expiresAt
  buckets : ∀ key held full, memory.buckets.get? key = some held →
    held.expiresAt = some full → tick ≤ full

theorem HeldSince.mono {tick earlier : Instant} (hheld : memory.HeldSince tick)
    (hearlier : earlier ≤ tick) : memory.HeldSince earlier where
  windows key held hget := Nat.le_trans hearlier (hheld.windows key held hget)
  buckets key held full hget hexpires :=
    Nat.le_trans hearlier (hheld.buckets key held full hget hexpires)

theorem HeldSince.sweep {tick : Instant} (hheld : memory.HeldSince tick) (now : Instant) :
    (memory.sweep now).HeldSince tick where
  windows key held hkept := hheld.windows key held (get?_windows_sweep_eq_some_iff.mp hkept).1
  buckets key held full hkept :=
    hheld.buckets key held full (get?_buckets_sweep_eq_some_iff.mp hkept).1

/-- What a sweep leaves has not expired. -/
theorem heldSince_sweep (memory : Memory α) (now : Instant) : (memory.sweep now).HeldSince now where
  windows _ _ hkept := Nat.le_of_lt (get?_windows_sweep_eq_some_iff.mp hkept).2
  buckets _ _ full hkept hexpires :=
    Nat.le_of_lt ((get?_buckets_sweep_eq_some_iff.mp hkept).2 full hexpires)

end

end Memory

theorem Window.le_endOf (anchor : Instant) (window : Duration) : anchor ≤ endOf anchor window := by
  unfold endOf
  cases hafter : anchor.after? window with
  | none => exact Nat.le_add_right _ _
  | some finish =>
      rw [Option.getD_some, Instant.after?_eq_some hafter]
      exact Nat.le_add_right _ _

/-- A call leaves the end of a window as it is, or begins a new window. -/
theorem Window.expiresAt_afterCall (held : Window) (now : Instant) (window : Duration) :
    (held.afterCall now window).expiresAt = endOf now window ∨
      held.count ≠ 0 ∧ (held.afterCall now window).expiresAt = held.expiresAt := by
  unfold afterCall
  split_ifs with hnew
  · exact Or.inl rfl
  · exact Or.inr ⟨fun hzero => hnew (Or.inl hzero), rfl⟩

/-- A bucket is not full again before it was used. -/
theorem Bucket.le_of_fullAt?_eq_some {α : Type} [Quantity α] {now full : Instant}
    {tokens rate burst : α} (hfull : fullAt? now tokens rate burst = some full) : now ≤ full := by
  obtain ⟨missing, -, hafter⟩ := Option.bind_eq_some_iff.mp hfull
  rw [Instant.after?_eq_some hafter]
  exact Nat.le_add_right _ _

namespace Memory

variable {α : Type} [Quantity α] {memory : Memory α}

/-- No operation enters what has expired before. -/
theorem HeldSince.perform {tick now : Instant} (hheld : memory.HeldSince tick) (hnow : tick ≤ now)
    (operation : Operation α) : (memory.perform now operation).2.HeldSince tick := by
  cases operation with
  | increment key window =>
      have hstep : (memory.perform now (.increment key window)).2 =
          (memory.increment now key window).2 := rfl
      refine ⟨fun other held hget => ?_, hheld.buckets⟩
      by_cases hkey : other = key
      · subst hkey
        rw [hstep, get?_windows_increment_self] at hget
        obtain rfl := Option.some.inj hget
        rcases Window.expiresAt_afterCall ((memory.windows.get? other).getD (.fresh now)) now window
          with hnew | ⟨hbegun, hsame⟩
        · rw [hnew]
          exact Nat.le_trans hnow (Window.le_endOf now window)
        · rw [hsame]
          cases hentry : memory.windows.get? other with
          | none =>
              exact absurd (congrArg (fun held? => (held?.getD (.fresh now)).count) hentry) hbegun
          | some entry => exact hheld.windows other entry hentry
      · rw [hstep, get?_windows_increment_of_ne _ _ hkey] at hget
        exact hheld.windows other held hget
  | take key rate burst =>
      rw [perform_take]
      refine ⟨hheld.windows, fun other held full hget hexpires => ?_⟩
      by_cases hkey : other = key
      · subst hkey
        rw [Table.get?_insert_self] at hget
        obtain rfl := Option.some.inj hget
        rw [useBucket_eq] at hexpires
        exact Nat.le_trans hnow (Bucket.le_of_fullAt?_eq_some hexpires)
      · rw [Table.get?_insert_of_ne _ hkey] at hget
        exact hheld.buckets other held full hget hexpires
  | sweep => exact hheld.sweep now

/-! ## What stays -/

/-- Whatever has an entry in one memory has one in the other. -/
structure HeldIn (memory later : Memory α) : Prop where
  windows : ∀ key, (memory.windows.get? key).isSome = true →
    (later.windows.get? key).isSome = true
  buckets : ∀ key, (memory.buckets.get? key).isSome = true →
    (later.buckets.get? key).isSome = true

omit [Quantity α] in
theorem HeldIn.refl (memory : Memory α) : memory.HeldIn memory := ⟨fun _ => id, fun _ => id⟩

omit [Quantity α] in
theorem HeldIn.trans {first second third : Memory α} (hfirst : first.HeldIn second)
    (hsecond : second.HeldIn third) : first.HeldIn third :=
  ⟨fun key => hsecond.windows key ∘ hfirst.windows key,
    fun key => hsecond.buckets key ∘ hfirst.buckets key⟩

end Memory

end Throttle
