import RobotPath.Program.Storage

/-!
# What a device has taken

A device is offered what is left of a text until nothing is left, and then asked to flush.
A record of these calls shows what it took of each offer and which call failed. So
whatever the device does, it holds a beginning of the text, and a failure is the one that
its last call reported. A call that was merely interrupted is made again; what counts as
its answer here is the one that comes in the end.
-/

namespace RobotPath

/-- What a device was asked for, with its answer. -/
inductive DeviceCall where
  | accept (offered : List UInt8) (answer : Except StorageFault Nat)
  | flush (answer : Except StorageFault Unit)

namespace DeviceCall

/-- The bytes that a device takes by its answer. -/
def taken : DeviceCall → List UInt8
  | accept offered (.ok count) => offered.take count
  | accept _ (.error _) | flush _ => []

/-- The failure that an answer reports. To take nothing of an offer is one. -/
def fault? : DeviceCall → Option StorageFault
  | accept _ (.ok 0) => some .nothingTaken
  | accept _ (.ok (_ + 1)) | flush (.ok ()) => none
  | accept _ (.error fault) | flush (.error fault) => some fault

/-- Nothing is taken by a call that fails. -/
theorem taken_of_fault {call : DeviceCall} {fault : StorageFault} (h : call.fault? = some fault) :
    call.taken = [] := by
  cases call with
  | flush answer => rfl
  | accept offered answer =>
      cases answer with
      | error fault => rfl
      | ok count =>
          cases count with
          | zero => rfl
          | succ count => cases h

/-- A flush takes nothing. -/
theorem flatMap_taken_concat_flush (calls : List DeviceCall) (answer : Except StorageFault Unit) :
    (calls ++ [flush answer]).flatMap taken = calls.flatMap taken := by
  rw [List.flatMap_append, List.flatMap_singleton, taken, List.append_nil]

end DeviceCall

/-- The calls by which bytes are offered, each time all that are left, with what comes of
them: nothing is left, or the last call fails. -/
inductive Offering : List UInt8 → List DeviceCall → Except StorageFault Unit → Prop where
  | finished : Offering [] [] (.ok ())
  | taking {bytes calls outcome count} (hbytes : bytes ≠ [])
      (rest : Offering (bytes.drop (count + 1)) calls outcome) :
      Offering bytes (.accept bytes (.ok (count + 1)) :: calls) outcome
  | failing {bytes answer fault} (hbytes : bytes ≠ [])
      (hfault : (DeviceCall.accept bytes answer).fault? = some fault) :
      Offering bytes [.accept bytes answer] (.error fault)

/-- The calls by which bytes are written: they are offered, and if that succeeds, a flush
decides. -/
inductive Writing (bytes : List UInt8) : List DeviceCall → Except StorageFault Unit → Prop where
  | stopped {calls fault} (h : Offering bytes calls (.error fault)) :
      Writing bytes calls (.error fault)
  | flushed {offers answer} (h : Offering bytes offers (.ok ())) :
      Writing bytes (offers ++ [.flush answer]) answer

section calls

variable {bytes : List UInt8} {calls : List DeviceCall} {outcome : Except StorageFault Unit}

namespace Offering

/-- No byte is lost and none is taken twice. -/
theorem taken_isPrefix (h : Offering bytes calls outcome) :
    calls.flatMap DeviceCall.taken <+: bytes := by
  induction h with
  | finished => exact List.nil_prefix
  | @taking bytes calls outcome count hbytes rest ih =>
      obtain ⟨left, hleft⟩ := ih
      refine ⟨left, ?_⟩
      rw [List.flatMap_cons, List.append_assoc, hleft]
      exact List.take_append_drop (count + 1) bytes
  | failing hbytes hfault =>
      rw [List.flatMap_singleton, DeviceCall.taken_of_fault hfault]
      exact List.nil_prefix

theorem taken_eq_iff (h : Offering bytes calls outcome) :
    calls.flatMap DeviceCall.taken = bytes ↔ outcome = .ok () := by
  induction h with
  | finished => simp
  | @taking bytes calls outcome count hbytes rest ih =>
      have hsplit : bytes.take (count + 1) ++ bytes.drop (count + 1) = bytes :=
        List.take_append_drop (count + 1) bytes
      rw [← ih, List.flatMap_cons, DeviceCall.taken]
      constructor
      · intro htaken
        exact List.append_cancel_left (htaken.trans hsplit.symm)
      · intro hrest
        rw [hrest]
        exact hsplit
  | failing hbytes hfault =>
      rw [List.flatMap_singleton, DeviceCall.taken_of_fault hfault]
      simp [hbytes.symm]

/-- A failure is that of the last call. -/
theorem last_of_error {fault : StorageFault} (h : Offering bytes calls (.error fault)) :
    ∃ call, calls.getLast? = some call ∧ call.fault? = some fault := by
  generalize houtcome : Except.error fault = outcome at h
  induction h with
  | finished => cases houtcome
  | taking hbytes rest ih =>
      obtain ⟨call, hlast, hfault⟩ := ih houtcome
      refine ⟨call, ?_, hfault⟩
      rw [List.getLast?_cons, hlast, Option.getD_some]
  | failing hbytes hfault =>
      cases houtcome
      exact ⟨_, rfl, hfault⟩

theorem flush_notMem (h : Offering bytes calls outcome) (answer : Except StorageFault Unit) :
    .flush answer ∉ calls := by
  induction h with
  | finished => exact List.not_mem_nil
  | taking hbytes rest ih => simpa using ih
  | failing hbytes hfault => simp

end Offering

namespace Writing

theorem taken_isPrefix (h : Writing bytes calls outcome) :
    calls.flatMap DeviceCall.taken <+: bytes := by
  cases h with
  | stopped h => exact h.taken_isPrefix
  | flushed h =>
      rw [DeviceCall.flatMap_taken_concat_flush]
      exact h.taken_isPrefix

/-- When everything has been taken, the flush is the last call and decides. -/
theorem last_of_taken (h : Writing bytes calls outcome)
    (htaken : calls.flatMap DeviceCall.taken = bytes) :
    calls.getLast? = some (.flush outcome) := by
  cases h with
  | stopped h => cases h.taken_eq_iff.mp htaken
  | flushed h => exact List.getLast?_concat

theorem eq_ok_iff (h : Writing bytes calls outcome) :
    outcome = .ok () ↔ calls.flatMap DeviceCall.taken = bytes ∧ .flush (.ok ()) ∈ calls := by
  cases h with
  | stopped h => simp [h.flush_notMem]
  | @flushed offers _ h =>
      have hflush : DeviceCall.flush (.ok ()) ∈ offers ++ [.flush outcome] ↔ outcome = .ok () := by
        simp [h.flush_notMem, eq_comm]
      rw [DeviceCall.flatMap_taken_concat_flush, hflush, h.taken_eq_iff, and_iff_right rfl]

theorem last_of_error {fault : StorageFault} (h : Writing bytes calls (.error fault)) :
    ∃ call, calls.getLast? = some call ∧ call.fault? = some fault := by
  cases h with
  | stopped h => exact h.last_of_error
  | flushed h => exact ⟨_, List.getLast?_concat, rfl⟩

end Writing

end calls

variable {σ : Type}

namespace Transfer

variable {t : Transfer σ}

theorem result_eq_ok_iff : t.result = .ok () ↔ t.outcome = .ok () := by
  rw [result]
  cases t.outcome with
  | ok => exact iff_of_true rfl rfl
  | error fault =>
      constructor
      · intro h
        cases h
      · intro h
        cases h

/-- A failure is passed on as that of an operation of this library. -/
theorem result_eq_error_iff {e : MotionError} :
    t.result = .error e ↔ ∃ fault, t.outcome = .error fault ∧ e = .storage fault := by
  rw [result]
  constructor
  · intro h
    cases houtcome : t.outcome with
    | ok =>
        rw [houtcome] at h
        cases h
    | error fault =>
        rw [houtcome] at h
        cases h
        exact ⟨fault, rfl, rfl⟩
  · rintro ⟨fault, houtcome, rfl⟩
    rw [houtcome]
    rfl

end Transfer

namespace Device

/-- A device with a record of the calls that were made to it. -/
def logged (d : Device σ) : Device (σ × List DeviceCall) where
  accept held offered :=
    let answered := d.accept held.1 offered
    (answered.1, answered.2, held.2 ++ [.accept offered answered.1])
  flush held :=
    let answered := d.flush held.1
    (answered.1, answered.2, held.2 ++ [.flush answered.1])

theorem accept_logged {d : Device σ} {state after : σ} {offered : List UInt8}
    {answer : Except StorageFault Nat} (h : d.accept state offered = (answer, after))
    (calls : List DeviceCall) :
    d.logged.accept (state, calls) offered = (answer, after, calls ++ [.accept offered answer]) := by
  change ((d.accept state offered).1, (d.accept state offered).2, _) = _
  rw [h]

/-- Keeping a record makes no difference to an offer, and shows what was taken of it. -/
theorem offer_logged (d : Device σ) (before : List UInt8) (state : σ) (bytes : List UInt8)
    (calls : List DeviceCall) :
    let sent := d.offer before state bytes
    ∃ more, d.logged.offer before (state, calls) bytes =
        ⟨sent.taken, sent.outcome, sent.state, calls ++ more⟩ ∧
      sent.taken = before.reverse ++ more.flatMap DeviceCall.taken ∧
      Offering bytes more sent.outcome := by
  fun_induction d.offer before state bytes generalizing calls with
  | case1 before state =>
      refine ⟨[], ?_, ?_, .finished⟩
      · rw [offer, List.append_nil]
      · rw [List.flatMap_nil, List.append_nil]
  | case2 before state byte rest fault after haccept =>
      refine ⟨[.accept (byte :: rest) (.error fault)], ?_, ?_, .failing (List.cons_ne_nil _ _) rfl⟩
      · rw [offer, accept_logged haccept]
      · rw [List.flatMap_singleton, DeviceCall.taken, List.append_nil]
  | case3 before state byte rest after haccept =>
      refine ⟨[.accept (byte :: rest) (.ok 0)], ?_, ?_, .failing (List.cons_ne_nil _ _) rfl⟩
      · rw [offer, accept_logged haccept]
      · rw [List.flatMap_singleton, DeviceCall.taken, List.take_zero, List.append_nil]
  | case4 before state byte rest count after haccept ih =>
      obtain ⟨more, hlogged, htaken, hoffering⟩ :=
        ih (calls ++ [.accept (byte :: rest) (.ok (count + 1))])
      refine ⟨.accept (byte :: rest) (.ok (count + 1)) :: more, ?_, ?_,
        .taking (List.cons_ne_nil _ _) hoffering⟩
      · rw [offer, accept_logged haccept]
        dsimp only
        rw [hlogged, List.append_assoc]
        rfl
      · rw [htaken]
        simp [DeviceCall.taken]

/-- After a failed offer there is no flush. -/
theorem write_of_error {d : Device σ} {state : σ} {bytes : List UInt8} {fault : StorageFault}
    (h : (d.writeAll state bytes).outcome = .error fault) :
    d.write state bytes = d.writeAll state bytes := by
  rw [write]
  dsimp only
  rw [h]

theorem write_of_ok {d : Device σ} {state : σ} {bytes : List UInt8}
    (h : (d.writeAll state bytes).outcome = .ok ()) :
    let sent := d.writeAll state bytes
    d.write state bytes = ⟨sent.taken, (d.flush sent.state).1, (d.flush sent.state).2⟩ := by
  rw [write]
  dsimp only
  rw [h]

theorem taken_write (d : Device σ) (state : σ) (bytes : List UInt8) :
    (d.write state bytes).taken = (d.writeAll state bytes).taken := by
  cases h : (d.writeAll state bytes).outcome with
  | error fault => rw [write_of_error h]
  | ok => rw [write_of_ok h]

/-- The calls that are made to a device when bytes are written to it. -/
def callsOf (d : Device σ) (state : σ) (bytes : List UInt8) : List DeviceCall :=
  (d.logged.write (state, []) bytes).state.2

/-- The calls tell what was taken, and the outcome is that of these calls. -/
theorem writing_callsOf (d : Device σ) (state : σ) (bytes : List UInt8) :
    (d.write state bytes).taken = (d.callsOf state bytes).flatMap DeviceCall.taken ∧
      Writing bytes (d.callsOf state bytes) (d.write state bytes).outcome := by
  obtain ⟨offers, hlogged, htaken, hoffering⟩ := d.offer_logged [] state bytes []
  change d.logged.writeAll (state, []) bytes = _ at hlogged
  change (d.writeAll state bytes).taken = offers.flatMap _ at htaken
  change Offering bytes offers (d.writeAll state bytes).outcome at hoffering
  cases houtcome : (d.writeAll state bytes).outcome with
  | error fault =>
      have hlogged' : (d.logged.writeAll (state, []) bytes).outcome = .error fault := by
        rw [hlogged]
        exact houtcome
      rw [callsOf, write_of_error houtcome, write_of_error hlogged', hlogged, houtcome]
      rw [houtcome] at hoffering
      exact ⟨htaken, .stopped hoffering⟩
  | ok =>
      have hlogged' : (d.logged.writeAll (state, []) bytes).outcome = .ok () := by
        rw [hlogged]
        exact houtcome
      rw [callsOf, write_of_ok houtcome, write_of_ok hlogged', hlogged]
      rw [houtcome] at hoffering
      refine ⟨?_, .flushed hoffering⟩
      exact htaken.trans (DeviceCall.flatMap_taken_concat_flush ..).symm

/-- A device that takes something of each offer, and no more than it has room for, until
it has no room left. Then it fails or takes nothing. -/
structure HasRoom (d : Device σ) (room : σ → Nat) : Prop where
  takes {state offered} : offered ≠ [] → 0 < room state →
    ∃ count after, d.accept state offered = (.ok count, after) ∧ 0 < count ∧
      count ≤ offered.length ∧ count + room after = room state
  full {state offered answer after} : offered ≠ [] → room state = 0 →
    d.accept state offered = (answer, after) →
      (DeviceCall.accept offered answer).fault? ≠ none

/-- A device either is full and fails, or takes something and has less room. -/
theorem HasRoom.accept_cases {d : Device σ} {room : σ → Nat} (h : d.HasRoom room)
    {state after : σ} {offered : List UInt8} {answer : Except StorageFault Nat}
    (hoffered : offered ≠ []) (haccept : d.accept state offered = (answer, after)) :
    (room state = 0 ∧ (DeviceCall.accept offered answer).fault? ≠ none) ∨
      ∃ count, answer = .ok (count + 1) ∧ count + 1 ≤ offered.length ∧
        count + 1 + room after = room state := by
  rcases Nat.eq_zero_or_pos (room state) with hnone | hroom
  · exact .inl ⟨hnone, h.full hoffered hnone haccept⟩
  · obtain ⟨count, _, htakes, hpos, hle, hleft⟩ := h.takes hoffered hroom
    rw [haccept] at htakes
    cases htakes
    obtain ⟨count, rfl⟩ := Nat.exists_eq_succ_of_ne_zero (Nat.ne_of_gt hpos)
    exact .inr ⟨count, rfl, hle, hleft⟩

/-- A device with room takes what fits. -/
theorem HasRoom.length_offer {d : Device σ} {room : σ → Nat} (h : d.HasRoom room)
    (before : List UInt8) (state : σ) (bytes : List UInt8) :
    (d.offer before state bytes).taken.length =
      before.length + min (room state) bytes.length := by
  fun_induction d.offer before state bytes with
  | case1 before state => simp
  | case2 before state byte rest fault after haccept =>
      rcases h.accept_cases (List.cons_ne_nil byte rest) haccept with ⟨hnone, -⟩ | ⟨_, htakes, -⟩
      · simp [hnone]
      · cases htakes
  | case3 before state byte rest after haccept =>
      rcases h.accept_cases (List.cons_ne_nil byte rest) haccept with ⟨hnone, -⟩ | ⟨_, htakes, -⟩
      · simp [hnone]
      · cases htakes
  | case4 before state byte rest count after haccept ih =>
      rcases h.accept_cases (List.cons_ne_nil byte rest) haccept with
        ⟨-, hfault⟩ | ⟨_, htakes, hle, hleft⟩
      · exact absurd rfl hfault
      · cases htakes
        rw [ih]
        simp only [List.length_append, List.length_reverse, List.length_take, List.length_cons,
          List.length_drop] at hle ⊢
        omega

theorem length_within (most : Option Nat) (bytes : List UInt8) :
    (within most bytes).length = most.elim bytes.length (min · bytes.length) := by
  cases most with
  | none => rfl
  | some count => exact List.length_take

/-- The limited device has room for what is left of its limit, however small its chunks. -/
theorem hasRoom_limited (limit : Nat) {chunk : Option Nat} (hchunk : chunk ≠ some 0)
    (flushFails : Bool) : (limited (some limit) chunk flushFails).HasRoom (limit - ·) where
  takes {held offered} hoffered hroom := by
    have hoffered : 0 < offered.length := List.length_pos_iff.mpr hoffered
    have hchunked : 0 < (within chunk offered).length ∧
        (within chunk offered).length ≤ offered.length := by
      rw [length_within]
      cases chunk with
      | none => exact ⟨hoffered, Nat.le_refl _⟩
      | some count =>
          have hcount : count ≠ 0 := fun h => hchunk (congrArg some h)
          rw [Option.elim_some]
          omega
    let taken := (within (some (limit - held)) (within chunk offered)).length
    have htaken : taken = min (limit - held) (within chunk offered).length := length_within _ _
    refine ⟨taken, held + taken, ?_, by omega⟩
    have hleft : ¬ limit ≤ held := by omega
    simp [limited, hleft, taken]
  full {held offered answer after} hoffered hroom haccept := by
    have hfull : limit ≤ held := by omega
    simp only [limited, Option.any_some, hfull, decide_true, if_true, Prod.mk.injEq] at haccept
    rw [← haccept.1]
    exact Option.some_ne_none _

/-- A file takes everything at the first offer and keeps what it holds already. -/
theorem write_file (held bytes : List UInt8) :
    file.write held bytes = ⟨bytes, .ok (), held ++ bytes⟩ := by
  have hall : file.writeAll held bytes = ⟨bytes, .ok (), held ++ bytes⟩ := by
    cases bytes with
    | nil => simp [writeAll, offer]
    | cons byte rest => simp [writeAll, offer, file]
  have hok : (file.writeAll held bytes).outcome = .ok () := by rw [hall]
  rw [write_of_ok hok, hall]
  rfl

end Device

namespace Program

/-- A program is stored as its text, with nothing of what was there before. -/
theorem save_eq_ok_iff {p : Program} {place after : Place} :
    p.save place = .ok after ↔
      place ≠ .directory ∧ place ≠ .nowhere ∧ after = .file p.text.toUTF8.data.toList := by
  have hsent : p.writeTo Device.file [] = ⟨p.bytes, .ok (), p.bytes⟩ := Device.write_file [] p.bytes
  have hstored : p.save .vacant = .ok (.file p.bytes) := by
    rw [save, hsent]
    rfl
  cases place with
  | directory | nowhere => simp [save]
  | vacant | file content =>
      change p.save .vacant = .ok after ↔ _
      rw [hstored]
      simp [bytes, eq_comm]

/-- Whatever a device takes of each offer, and whether or not it fails, it holds a beginning
of the text in UTF-8 in the end. Writing succeeds exactly if that is the whole text and the
flush succeeds; otherwise the failure is the one that the last call reported. A device with
room for some bytes takes that many or all of them, and if the text fits, nothing but the
flush can fail. -/
theorem writeTo_takes_beginning (p : Program) (d : Device σ) (start : σ) :
    let sent := p.writeTo d start
    let calls := d.callsOf start p.bytes
    let whole := p.text.toUTF8.data.toList
    (sent.taken = calls.flatMap DeviceCall.taken ∧ sent.taken <+: whole) ∧
      (sent.result = .ok () ↔ sent.taken = whole ∧ .flush (.ok ()) ∈ calls) ∧
      (∀ e, sent.result = .error e → ∃ call fault, calls.getLast? = some call ∧
        call.fault? = some fault ∧ e = .storage fault) ∧
      ∀ room : σ → Nat, d.HasRoom room →
        sent.taken.length = min (room start) whole.length ∧
          (whole.length ≤ room start → calls.getLast? = some (.flush sent.outcome)) := by
  intro sent calls whole
  obtain ⟨htaken, hwriting⟩ := d.writing_callsOf start p.bytes
  change sent.taken = calls.flatMap DeviceCall.taken at htaken
  change Writing whole calls sent.outcome at hwriting
  have hprefix : sent.taken <+: whole := by
    rw [htaken]
    exact hwriting.taken_isPrefix
  have hlast : sent.taken = whole → calls.getLast? = some (.flush sent.outcome) := by
    rw [htaken]
    exact hwriting.last_of_taken
  refine ⟨⟨htaken, hprefix⟩, ?_, ?_, ?_⟩
  · rw [htaken, ← hwriting.eq_ok_iff, Transfer.result_eq_ok_iff]
  · intro e he
    obtain ⟨fault, houtcome, rfl⟩ := Transfer.result_eq_error_iff.mp he
    rw [houtcome] at hwriting
    obtain ⟨call, hlast, hfault⟩ := hwriting.last_of_error
    exact ⟨call, fault, hlast, hfault, rfl⟩
  · intro room hroom
    have hlength : sent.taken.length = min (room start) whole.length := by
      change (d.write start whole).taken.length = _
      rw [Device.taken_write, Device.writeAll, hroom.length_offer, List.length_nil, Nat.zero_add]
    refine ⟨hlength, ?_⟩
    intro hfits
    apply hlast
    apply hprefix.eq_of_length
    rw [hlength, Nat.min_eq_right hfits]

/-- The shortest text with a character of two bytes. -/
def umlaut : Program := ⟨"", [.raw "ä"], []⟩

/-- A device without room for the second byte of that character, and one that takes the text
byte by byte but cannot flush it. -/
theorem writeTo_takes_beginning_umlaut :
    let narrow := Device.limited (some 1) none false
    let slow := Device.limited (some 6) (some 1) true
    (narrow.HasRoom (1 - ·) ∧ (umlaut.writeTo narrow 0).taken.length = 1 ∧
        ∃ fault, (umlaut.writeTo narrow 0).result = .error (.storage fault)) ∧
      slow.HasRoom (6 - ·) ∧ (umlaut.writeTo slow 0).taken.length = 6 ∧
        (slow.callsOf 0 umlaut.bytes).getLast? = some (.flush (umlaut.writeTo slow 0).outcome) := by
  intro narrow slow
  have hlength : umlaut.text.toUTF8.data.toList.length = 6 := by decide +kernel
  have hnarrow : narrow.HasRoom (1 - ·) := Device.hasRoom_limited 1 (by decide) false
  have hslow : slow.HasRoom (6 - ·) := Device.hasRoom_limited 6 (by decide) true
  obtain ⟨⟨htaken, hbeginning⟩, hok, herror, hroom⟩ := writeTo_takes_beginning umlaut narrow 0
  obtain ⟨-, -, -, hroom'⟩ := writeTo_takes_beginning umlaut slow 0
  obtain ⟨hone, -⟩ := hroom _ hnarrow
  obtain ⟨hall, hlast⟩ := hroom' _ hslow
  rw [hlength] at hone hall hlast
  refine ⟨⟨hnarrow, hone, ?_⟩, hslow, hall, hlast (Nat.le_refl 6)⟩
  cases hresult : (umlaut.writeTo narrow 0).result with
  | ok =>
      obtain ⟨hwhole, -⟩ := hok.mp hresult
      rw [hwhole, hlength] at hone
      cases hone
  | error e =>
      obtain ⟨_, fault, -, -, rfl⟩ := herror e hresult
      exact ⟨fault, rfl⟩

end Program

end RobotPath
