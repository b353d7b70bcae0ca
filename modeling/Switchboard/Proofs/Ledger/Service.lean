import Switchboard.Exchange.Service
import Switchboard.Proofs.Ledger.Masquerade

namespace Switchboard.Exchange

variable {found : Pair → Prop} (e : Exchange) (m : Multiset (PairId × Bool))

theorem signal_steps (c : ChannelId) (s : Signal) :
    Ledger.Steps found ⟨e.records, m⟩ ((e.signal c s).ledger m) := by
  cases s with
  | call dialled milliseconds =>
      have hlaunch : Alters found e (e.launch c).2 := launch_alters e c
      rw [signal]
      rcases h : e.launch c with ⟨_ | _, e'⟩ <;> rw [h] at hlaunch <;> exact hlaunch.steps rfl m
  | hangup => exact teardown_steps e m c
  | answer => exact answer_steps e m c
  | write frame => exact writeFrame_steps e m c frame
  | indicate kind data => exact indicate_steps e m c kind data
  | beginDigit | endDigit | sendText | sendHtml => exact relayFrom_steps e m c _

theorem dispatch_steps (c : ChannelId) (s : Signal) :
    Ledger.Steps found ⟨e.records, m⟩ ((e.dispatch c s).ledger m) := by
  rw [dispatch]
  split
  · cases hl : e.lock? c with
    | none => exact quiet_steps rfl rfl
    | some e' =>
        dsimp only
        rw [Turn.ledger_append _ _ _ rfl, ← lock_records hl]
        exact signal_steps e' m c s
  · exact quiet_steps rfl rfl

theorem hangup_steps (c : ChannelId) :
    Ledger.Steps found ⟨e.records, m⟩ ((e.hangup c).ledger m) := by
  rw [hangup]
  split
  · exact quiet_steps rfl rfl
  · refine quiet_steps rfl ?_
    split <;> rfl

theorem send_steps (c : ChannelId) (s : Signal) :
    Ledger.Steps found ⟨e.records, m⟩ ((e.send c s).ledger m) := by
  cases s with
  | write frame =>
      rw [send]
      split
      · exact quiet_steps rfl rfl
      · split <;> exact quiet_steps rfl rfl
  | _ => exact quiet_steps rfl rfl

theorem resume_steps (t : Task)
    (h : ∀ a side, t = .retry a → a.purpose.leaving = some side →
      (e.pair a.pair).endpoint side ≠ none ∨ found (e.pair a.pair)) :
    Ledger.Steps found ⟨e.records, pendingRetries [t] + m⟩ ((e.resume t).ledger m) := by
  cases t with
  | retry a => exact retry_steps e m a fun side hs => h a side rfl hs
  | dispatch c s => rw [pendingRetries_quiet rfl]; exact dispatch_steps e m c s
  | hangup c => rw [pendingRetries_quiet rfl]; exact hangup_steps e m c
  | write p c frame third =>
      rw [pendingRetries_quiet rfl]; exact writeKnowing_steps e m p c frame third
  | complete survivor => rw [pendingRetries_quiet rfl]; exact complete_steps e m survivor
  | takeOver survivor clone =>
      rw [pendingRetries_quiet rfl]; exact takeOver_steps e m survivor clone
  | _ => rw [pendingRetries_quiet rfl]; exact quiet_steps rfl rfl

theorem records_install (d : Destination) (requested : FormatMask) (owner chan : ChannelId) :
    (e.install d requested owner chan).2.records = e.records.opened (.opened d requested
      { e.config.jitterbuffer with enabled := d.options.jitterbuffer } owner chan) := rfl

theorem records_allocateWithin (r : Allocation) : (e.allocateWithin r).2.records = e.records := by
  rw [allocateWithin]
  split <;> rfl

theorem records_allocate (r : Allocation) : (e.allocate r).2.records = e.records := by
  rw [allocate]
  split
  · exact records_allocateWithin e r
  · split
    · rfl
    · exact records_allocateWithin _ r

theorem createPair_records (text : String) (format : FormatMask) :
    (∀ why e', e.createPair text format = (.error why, e') → e'.records = e.records) ∧
    ∀ p e', e.createPair text format = (.ok p, e') →
      ∃ d j owner chan, Destination.parse text e.config.defaultContext = .ok d ∧
        e'.records = e.records.opened (.opened d format j owner chan) := by
  rw [createPair]
  cases Destination.parse text e.config.defaultContext with
  | error why =>
      refine ⟨?_, ?_⟩
      · rintro _ _ ⟨⟩
        rfl
      · rintro _ _ ⟨⟩
  | ok d =>
      dsimp only
      generalize hx : (e.extensionExists d.context d.exten none).2 = x
      have hrec : x.records = e.records := by rw [← hx]; rfl
      have hfirst := (records_allocate x (endpointRequest d (x.baseName d ++ ";1"))).trans hrec
      rcases h₁ : x.allocate (endpointRequest d (x.baseName d ++ ";1")) with ⟨why | owner, e₁⟩ <;>
        rw [h₁] at hfirst
      · refine ⟨?_, ?_⟩
        · rintro _ _ ⟨⟩
          exact hfirst
        · rintro _ _ ⟨⟩
      · dsimp only at hfirst ⊢
        have hsecond :=
          (records_allocate e₁ (endpointRequest d (x.baseName d ++ ";2"))).trans hfirst
        rcases h₂ : e₁.allocate (endpointRequest d (x.baseName d ++ ";2")) with ⟨why | chan, e₂⟩ <;>
          rw [h₂] at hsecond
        · refine ⟨?_, ?_⟩
          · rintro _ _ ⟨⟩
            exact hsecond
          · rintro _ _ ⟨⟩
        · refine ⟨?_, ?_⟩
          · rintro _ _ ⟨⟩
          · rintro _ _ ⟨⟩
            exact ⟨d, _, owner, chan, rfl, by rw [records_install, hsecond]⟩

theorem request_records (route : Route) (technology text : String) (format : FormatMask) :
    (∀ why e', e.request route technology text format = (.error why, e') → e'.records = e.records) ∧
    ∀ p e', e.request route technology text format = (.ok p, e') →
      ∃ d j owner chan, Destination.parse text e.config.defaultContext = .ok d ∧
        e'.records = e.records.opened (.opened d format j owner chan) := by
  rw [request]
  split
  · exact createPair_records e text format
  · refine ⟨?_, ?_⟩
    · rintro _ _ ⟨⟩
      rfl
    · rintro _ _ ⟨⟩

theorem records_unload : e.unload.2.records = e.records := by
  rw [unload]
  generalize e.registry.pairs.filterMap _ = owners
  induction owners generalizing e with
  | nil => rfl
  | cons c owners ih => exact ih (e.softHangup c .appUnload)

theorem records_transfer (a b : ChannelId) (what : Transfer) :
    (e.transfer a b what).records = e.records := by
  cases what <;> rfl

theorem records_applyLocking (c : ChannelId) (what : Locking) :
    (e.applyLocking c what).1.records = e.records := by
  cases what with
  | lock =>
      rw [applyLocking]
      cases h : e.lock? c with
      | none => rfl
      | some e' => exact lock_records h
  | tryLock => exact records_attemptLock e c
  | avoidDeadlock | hold =>
      rw [applyLocking]
      split <;> rfl
  | _ => rfl

theorem perform_steps (op : Operation) (h : ∀ route technology text format,
      op ≠ .request route technology text format) :
    Ledger.Steps found ⟨e.records, m⟩ ((e.perform op).ledger m) := by
  cases op with
  | request route technology text format => exact absurd rfl (h route technology text format)
  | signal route c s =>
      cases route with
      | dispatched => exact send_steps e m c s
      | direct => exact signal_steps e m c s
  | fixup old new =>
      have hfixup : Alters found e (e.fixup old new).2 := fixup_alters e old new
      rw [perform]
      rcases hf : e.fixup old new with ⟨_ | _, e'⟩ <;> rw [hf] at hfixup <;>
        exact Alters.steps hfixup rfl m
  | relay p side frame source locked => exact relay_steps e m p side frame source locked
  | unload => exact quiet_steps (records_unload e) rfl
  | transfer what a b => exact quiet_steps (records_transfer e a b what) rfl
  | locking c what => exact quiet_steps (records_applyLocking e c what) rfl
  | deviceState route technology device =>
      rw [perform]
      dsimp only
      split
      · refine quiet_steps ?_ rfl
        rw [deviceState]
        split <;> rfl
      · exact quiet_steps rfl rfl
  | unregister technology =>
      rw [perform]
      split <;> exact quiet_steps rfl rfl
  | addExtension context exten =>
      refine quiet_steps ?_ rfl
      rw [addExtension]
      split <;> rfl
  | allocate r =>
      have hallocate := records_allocate e r
      rw [perform]
      rcases ha : e.allocate r with ⟨_ | _, e'⟩ <;> rw [ha] at hallocate <;>
        exact quiet_steps hallocate rfl
  | masquerade survivor clone =>
      have hmasquerade := records_masquerade e survivor clone
      rw [perform]
      rcases hm : e.masquerade survivor clone with ⟨_ | _, e'⟩ <;> rw [hm] at hmasquerade <;>
        exact quiet_steps hmasquerade rfl
  | completeMasquerade c =>
      rw [perform]
      cases hl : e.lock? c with
      | none => exact quiet_steps rfl rfl
      | some e' =>
          dsimp only
          rw [Turn.ledger_append _ _ _ rfl, ← lock_records hl]
          exact completeMasquerade_steps e' m c
  | startDialplan c =>
      have hstart := records_startDialplan e c
      rw [perform]
      rcases hs : e.startDialplan c with ⟨_ | _, e'⟩ <;> rw [hs] at hstart <;>
        exact quiet_steps hstart rfl
  | _ => exact quiet_steps rfl rfl

end Switchboard.Exchange
