import Switchboard.Proofs.Locks.Turns

namespace Switchboard.Exchange

open Turn

variable {e : Exchange}

theorem locks_addChannel (x : Channel) (hx : x.lock = {}) : (e.addChannel x).2.locks = e.locks := by
  funext c
  unfold locks
  rw [channel_addChannel]
  split
  · next hc =>
      rw [hx, hc, channel_of_not_among e not_among_next]
      rfl
  · rfl

theorem locks_allocate (r : Allocation) : (e.allocate r).2.locks = e.locks := by
  have hwithin : ∀ x : Exchange, x.channels = e.channels →
    (x.allocateWithin r).2.locks = e.locks := by
    intro x hx
    rw [allocateWithin]
    split
    · exact locks_eq_of_channels hx
    · exact (locks_addChannel (e := { x with allocationLimit := x.allocationLimit.map (· - 1) })
        _ rfl).trans
        (locks_eq_of_channels hx)
  rw [allocate]
  split
  · exact hwithin e rfl
  · next outcome rest _ =>
      cases outcome with
      | some refusal => rfl
      | none => exact hwithin { e with contention := { e.contention with allocations := rest } } rfl

theorem locks_furnish (c : ChannelId) (p : PairId) (d : Destination) (codec : FormatMask) :
    (e.furnish c p d codec).locks = e.locks :=
  locks_modifyChannel e c rfl

theorem locks_install (d : Destination) (requested : FormatMask) (owner chan : ChannelId) :
    (e.install d requested owner chan).2.locks = e.locks := by
  have hfurnish : ∀ p codec, (((e.furnish owner p d codec).furnish chan p d codec)).locks =
    e.locks :=
    fun p codec => (locks_furnish chan p d codec).trans (locks_furnish owner p d codec)
  exact (locks_modifyChannel _ owner rfl).trans
    (hfurnish ⟨e.pairs.next⟩ (requested.best.getD .empty))

theorem locks_release (e : Exchange) (c : ChannelId) : (e.release c).locks = e.locks :=
  (locks_eq_of_channels rfl).trans (locks_setSlot (e.delist c) c .empty)

theorem locks_createPair (text : String) (format : FormatMask) :
    (e.createPair text format).2.locks = e.locks := by
  rw [createPair]
  cases Destination.parse text e.config.defaultContext with
  | error why => rfl
  | ok d =>
      dsimp only
      generalize hx : (e.extensionExists d.context d.exten none).2 = x
      have hlocks : x.locks = e.locks := by rw [← hx]; rfl
      have howner := locks_allocate (e := x) (endpointRequest d (x.baseName d ++ ";1"))
      rcases h₁ : x.allocate (endpointRequest d (x.baseName d ++ ";1")) with ⟨_ | owner, e₁⟩ <;>
        rw [h₁] at howner
      · exact howner.trans hlocks
      · have hchan := locks_allocate (e := e₁) (endpointRequest d (x.baseName d ++ ";2"))
        dsimp only at howner ⊢
        rcases h₂ : e₁.allocate (endpointRequest d (x.baseName d ++ ";2")) with ⟨_ | chan, e₂⟩ <;>
          rw [h₂] at hchan
        · exact (((locks_release e₂ owner).trans hchan).trans howner).trans hlocks
        · exact (((locks_install d format owner chan).trans hchan).trans howner).trans hlocks

theorem locks_unload : e.unload.2.locks = e.locks := by
  rw [unload]
  generalize e.registry.pairs.filterMap _ = owners
  induction owners generalizing e with
  | nil => rfl
  | cons c owners ih => exact ih.trans (locks_softHangup e c .appUnload)

theorem lock_apply (change : Edit) (x : Channel) : (change.apply x).lock = x.lock := by
  cases change <;> rfl

theorem applyLocking_sound (hv : e.locks.Sound) (c : ChannelId) (what : Locking) :
    (e.applyLocking c what).1.locks.Sound := by
  have hrelock : ∀ l : RecursiveLock Party, l.Sound →
    (e.modifyChannel c ({ · with lock := l })).locks.Sound := by
    intro l hl
    by_cases hc : c.Among e.channels.size
    · rw [locks_relock e hc]
      exact hv.update hl c
    · rwa [(locks_unmade e hc _).1]
  cases what with
  | lock =>
      rw [applyLocking]
      cases hl : e.lock? c with
      | none => exact hv
      | some x => exact (takes_of_lock hv hl).sound
  | tryLock =>
      rw [applyLocking]
      rw [attemptLock]
      cases hl : e.lock? c with
      | none => exact hv
      | some x => exact (takes_of_lock hv hl).sound
  | unlock =>
      rw [applyLocking]
      rw [locks_unlock]
      exact hv.released c
  | avoidDeadlock =>
      rw [applyLocking]
      split
      · rwa [locks_avoidDeadlock]
      · exact hv
  | hold =>
      rw [applyLocking]
      split
      · exact hrelock _ RecursiveLock.sound_take
      · exact hv
  | releaseHold => exact hrelock _ (hv c).unlock
  | otherTryLock | otherUnlock => exact hv

theorem perform_returns (hv : e.locks.Sound) (op : Operation)
    (hop : ∀ c what, op ≠ .locking c what) :
    Returns e.locks (e.perform op) := by
  cases op with
  | request route technology text format =>
      have hrequest : (e.request route technology text format).2.locks = e.locks := by
        rw [request]
        split
        · exact locks_createPair text format
        · rfl
      rw [perform]
      rcases hr : e.request route technology text format with ⟨_ | _, x⟩ <;> rw [hr] at hrequest
      · exact returns_refused hv hrequest _
      · exact returns_settled hv hrequest _
  | deviceState route technology device =>
      have hstate : (e.deviceState device).2.locks = e.locks := by
        rw [deviceState]
        split <;> rfl
      rw [perform]
      dsimp only
      split
      · exact returns_settled hv hstate _
      · exact returns_settled hv rfl _
  | signal route c s =>
      cases route with
      | dispatched => exact send_returns hv c s
      | direct => exact signal_returns hv c s
  | fixup old new =>
      have hfixup := locks_fixup (e := e) old new
      rw [perform]
      rcases hf : e.fixup old new with ⟨_ | _, x⟩ <;> rw [hf] at hfixup
      · exact returns_refused hv hfixup _
      · exact returns_settled hv hfixup _
  | relay p side frame source locked => exact relay_returns hv p side frame source locked
  | unload => exact returns_settled hv locks_unload _
  | unregister technology =>
      rw [perform]
      split
      · exact returns_of_eq hv rfl rfl rfl
      · exact returns_settled hv rfl _
  | addExtension context exten =>
      refine returns_settled hv ?_ _
      rw [addExtension]
      split <;> rfl
  | newChannel name => exact returns_settled hv (locks_addChannel _ rfl) _
  | allocate r =>
      have hallocate := locks_allocate (e := e) r
      rw [perform]
      rcases ha : e.allocate r with ⟨_ | _, x⟩ <;> rw [ha] at hallocate <;>
        exact returns_settled hv hallocate _
  | release c => exact returns_settled hv (locks_release e c) _
  | edit c change => exact returns_settled hv (locks_modifyChannel e c (lock_apply change _)) _
  | transfer what a b => exact returns_settled hv (locks_transfer e a b what) _
  | masquerade survivor clone =>
      have hmasquerade : (e.masquerade survivor clone).2.locks = e.locks := by
        rw [masquerade]
        split
        · rfl
        · exact locks_modifyChannel e survivor rfl
      rw [perform]
      rcases hm : e.masquerade survivor clone with ⟨_ | _, x⟩ <;> rw [hm] at hmasquerade <;>
        exact returns_settled hv hmasquerade _
  | completeMasquerade c =>
      rw [perform]
      cases hl : e.lock? c with
      | none => exact returns_of_eq hv rfl rfl rfl
      | some x =>
          have htakes := takes_of_lock hv hl
          have hcomplete := returns_unlock htakes (completeMasquerade_returns htakes.sound c)
          dsimp only
          rw [show [Task.unlock c, Task.settle .done] = [.unlock c] ++ [Task.settle .done] from rfl,
            ← List.append_assoc]
          exact returns_append hcomplete rfl rfl
  | drain c => exact returns_settled hv (locks_modifyChannel e c rfl) _
  | startDialplan c =>
      rw [perform]
      rw [startDialplan_eq]
      cases e.dialplanRefused with
      | true => exact returns_settled hv rfl _
      | false => exact returns_settled hv (locks_modifyChannel e c rfl) _
  | locking c what => exact absurd rfl (hop c what)
  | _ => exact returns_of_eq hv rfl rfl rfl

end Switchboard.Exchange
