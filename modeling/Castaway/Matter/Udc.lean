import Castaway.Lib.Runs
import Mathlib.Data.Nat.Digits.Defs

/-!
# User-directed commissioning

A phone declares itself, the panel shows a passcode, and the phone declares that
its user has typed it.  `handle` is what the server makes of a declaration: it
keeps one `Flow` for all phones.  The passcode that `generatePasscode` has drawn
and which apps the catalogue hosts are given to it.
-/

namespace Castaway.Matter

/-- How long a displayed passcode may be redeemed, in nanoseconds. -/
def passcodeLifetime : ℕ := 180 * 1000000000

inductive CdError where
  | none
  | commissionableDiscoveryFailed
  | paseConnectionFailed
  | caseConnectionFailed
  | commissionerPasscodeNotSupported
  | commissionerPasscodeDisabled
  | unexpectedCommissionerPasscodeReady
  deriving DecidableEq

/-- What the server answers a declaration with. -/
structure CommissionerDeclaration where
  errorCode : CdError := .none
  needsPasscode : Bool := false
  noAppsFound : Bool := false
  passcodeDialogDisplayed : Bool := false
  commissionerPasscode : Bool := false
  cancelPasscode : Bool := false
  passcodeLength : ℕ := 0
  deriving DecidableEq

/-- A phone is known by its instance name. -/
structure IdentificationDeclaration (Name App : Type) where
  instanceName : Name
  deviceName : Option String
  cdPort : Option UInt16
  targetApps : List App
  commissionerPasscode : Bool
  commissionerPasscodeReady : Bool
  cancelPasscode : Bool

inductive UdcRequest where
  | cancel
  | passcodeReady
  | commission
  deriving DecidableEq

variable {Name App Ip : Type}

namespace IdentificationDeclaration

/-- Cancel wins over ready, and ready over a fresh request. -/
def request (id : IdentificationDeclaration Name App) : UdcRequest :=
  if id.cancelPasscode then .cancel
  else if id.commissionerPasscodeReady then .passcodeReady
  else .commission

/-- A port of 0 asks for no reply. -/
def replyPort (id : IdentificationDeclaration Name App) : Option UInt16 :=
  id.cdPort.filter (· ≠ 0)

end IdentificationDeclaration

inductive Prompt (Name : Type) where
  | passcode (instanceName : Name) (device : String) (passcode : String)
  | clear (instanceName : Name)
  deriving DecidableEq

def Prompt.instanceName : Prompt Name → Name
  | .passcode instanceName _ _ => instanceName
  | .clear instanceName => instanceName

structure CommissionRequest (Name Ip : Type) where
  instanceName : Name
  passcode : ℕ
  deviceName : String
  source : Ip
  replyTo : Option (Ip × UInt16)
  deriving DecidableEq

/-- The one pairing the panel runs at a time. -/
inductive Flow (Name : Type) where
  | idle
  | displayed (instanceName : Name) (passcode : ℕ) (deviceName : String) (issued : ℕ)
  | commissioning (instanceName : Name)
  deriving DecidableEq

structure Decision (Name Ip : Type) where
  reply : CommissionerDeclaration := {}
  expired : Option Name := none
  prompt : Option (Prompt Name) := none
  commission : Option (CommissionRequest Name Ip) := none

def passcodeMin : ℕ := 1

def passcodeMax : ℕ := 99999998

/-- Those that are guessed first, and two that are reserved. -/
def forbiddenPasscodes : List ℕ :=
  [0, 11111111, 22222222, 33333333, 44444444, 55555555, 66666666, 77777777, 88888888, 99999999,
    12345678, 87654321]

/-- What is returned once the random numbers are these: nothing, if all that
they gave is forbidden and another has to be drawn. -/
def generatePasscode : List UInt32 → Option ℕ
  | [] => none
  | draw :: draws =>
    let candidate := passcodeMin + draw.toNat % (passcodeMax - passcodeMin + 1)
    if candidate ∈ forbiddenPasscodes then generatePasscode draws else some candidate

/-- A setup passcode that may be used. -/
structure Allowed (passcode : ℕ) : Prop where
  le_max : passcode ≤ passcodeMax
  not_forbidden : passcode ∉ forbiddenPasscodes

theorem Allowed.of_generated {draws : List UInt32} {passcode : ℕ}
    (h : generatePasscode draws = some passcode) : Allowed passcode := by
  induction draws with
  | nil => cases h
  | cons draw draws ih =>
    rw [generatePasscode] at h
    split at h
    · exact ih h
    · rename_i hallowed
      cases h
      refine ⟨?_, hallowed⟩
      have hlt := Nat.mod_lt draw.toNat (show 0 < passcodeMax - passcodeMin + 1 by decide)
      unfold passcodeMax passcodeMin at *
      omega

/-- Eight digits, in two groups. -/
def formatPasscode (passcode : ℕ) : String :=
  let digits := Nat.toDigits 10 passcode
  let digits := List.replicate (8 - digits.length) '0' ++ digits
  String.ofList (digits.take 4 ++ '-' :: digits.drop 4)

/-- Two groups of four digits, which read as the passcode. -/
def Spells (text : String) (passcode : ℕ) : Prop :=
  ∃ left right, text.toList = left ++ '-' :: right ∧ left.length = 4 ∧ right.length = 4 ∧
    (∀ c ∈ left ++ right, c.isDigit) ∧ Nat.ofDigitChars 10 (left ++ right) 0 = passcode

theorem spells_formatPasscode {passcode : ℕ} (h : Allowed passcode) :
    Spells (formatPasscode passcode) passcode := by
  have hlength : (Nat.toDigits 10 passcode).length ≤ 8 :=
    (Nat.length_toDigits_le_iff (Nat.one_lt_succ_succ 8) (Nat.succ_pos 7)).mpr
      (h.le_max.trans_lt (by decide))
  have hpadded : (List.replicate (8 - (Nat.toDigits 10 passcode).length) '0' ++
      Nat.toDigits 10 passcode).length = 8 := by
    rw [List.length_append, List.length_replicate]
    omega
  refine ⟨_, _, String.toList_ofList, by rw [List.length_take, hpadded]; rfl,
    by rw [List.length_drop, hpadded], ?_, ?_⟩ <;> rw [List.take_append_drop]
  · intro c hc
    rcases List.mem_append.mp hc with hzero | hdigit
    · rw [List.eq_of_mem_replicate hzero]
      rfl
    · exact Nat.isDigit_of_mem_toDigits (by decide) (by decide) hdigit
  · rw [Nat.ofDigitChars_append, Nat.ofDigitChars_replicate_zero, Nat.mul_zero,
      Nat.ofDigitChars_ten_toDigits]

namespace Flow

/-- Whose passcode is displayed, or who is being commissioned. -/
def phone : Flow Name → Option Name
  | idle => none
  | displayed instanceName _ _ _ => some instanceName
  | commissioning instanceName => some instanceName

/-- Drop a displayed passcode past its lifetime, and say whose it was. -/
def expire (flow : Flow Name) (now : ℕ) : Flow Name × Option Name :=
  match flow with
  | displayed name passcode device issued =>
    if passcodeLifetime ≤ now - issued then (idle, some name)
    else (displayed name passcode device issued, none)
  | flow => (flow, none)

variable [DecidableEq Name]

/-- A phone backs out. -/
def onCancel (flow : Flow Name) (name : Name) : Flow Name × Option (Prompt Name) :=
  match flow with
  | displayed current passcode device issued =>
    if current = name then (idle, some (.clear name))
    else (displayed current passcode device issued, none)
  | commissioning current =>
    -- the attempt goes on, without its prompt
    (commissioning current, if current = name then some (.clear name) else none)
  | idle => (idle, none)

/-- What a declaration means to a flow that has not lapsed.  `passcode` is shown
if a new one is issued. -/
def answer (flow : Flow Name) (id : IdentificationDeclaration Name App) (source : Ip)
    (hostsAny : List App → Bool) (passcode now : ℕ) : Flow Name × Decision Name Ip :=
  match id.request with
  | .cancel =>
    ((flow.onCancel id.instanceName).1,
      { reply := { cancelPasscode := true }, prompt := (flow.onCancel id.instanceName).2 })
  | .passcodeReady =>
    let unexpected : Decision Name Ip :=
      { reply := { errorCode := .unexpectedCommissionerPasscodeReady } }
    match flow with
    | displayed name passcode device issued =>
      if name = id.instanceName then
        (commissioning name,
          { commission := some
              { instanceName := name, passcode, deviceName := device, source
                replyTo := id.replyPort.map fun port => (source, port) } })
      else (displayed name passcode device issued, unexpected)
    | commissioning name =>
      -- a retransmit of the declaration that started the attempt
      (commissioning name, if name = id.instanceName then {} else unexpected)
    | idle => (idle, unexpected)
  | .commission =>
    let shown passcode device : Decision Name Ip :=
      { reply :=
          { passcodeDialogDisplayed := true, commissionerPasscode := true, passcodeLength := 8 }
        prompt := some (.passcode id.instanceName device (formatPasscode passcode)) }
    let busy : Decision Name Ip := { reply := { errorCode := .commissionerPasscodeDisabled } }
    if !id.commissionerPasscode then
      (flow, { reply := { errorCode := .commissionerPasscodeNotSupported, needsPasscode := true } })
    else if !hostsAny id.targetApps then (flow, { reply := { noAppsFound := true } })
    else
      match flow with
      | displayed name passcode device issued =>
        -- a declaration that is already displayed gets the number it already got
        (displayed name passcode device issued,
          if name = id.instanceName then shown passcode device else busy)
      | commissioning name => (commissioning name, busy)
      | idle =>
        let device := id.deviceName.getD "a device"
        (displayed id.instanceName passcode device now, shown passcode device)

/-- Decide what a declaration means, once a lapsed passcode is dropped. -/
def handle (flow : Flow Name) (id : IdentificationDeclaration Name App) (source : Ip)
    (hostsAny : List App → Bool) (passcode now : ℕ) : Flow Name × Decision Name Ip :=
  let answered := (flow.expire now).1.answer id source hostsAny passcode now
  (answered.1, { answered.2 with expired := (flow.expire now).2 })

/-- The worker finished an attempt: free the slot if it is that attempt's. -/
def finished (flow : Flow Name) (name : Name) : Flow Name :=
  if flow = commissioning name then idle else flow

/-- When the displayed passcode falls out of its window. -/
def nextExpiry : Flow Name → Option ℕ
  | displayed _ _ _ issued => some (issued + passcodeLifetime)
  | _ => none

end Flow

end Castaway.Matter
