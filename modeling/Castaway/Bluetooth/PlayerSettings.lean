import Castaway.Bluetooth.Avrcp

/-!
# The settings of a player

A player lists the settings it has, and is then asked for the values of repeat
and of shuffle, one after the other: an answer with values does not say which
setting they are of, so `SettingsQuery` remembers what was asked.  What to ask
next is read off the values that are recorded: the first setting of the two that
is listed and has none.

`Interrogation` sets the questions beside this, as they are read off the frames
that leave, and which of them have had an answer.  An answer is to one of these
questions.
-/

namespace Castaway.Bluetooth

/-! ## Settings and their values -/

inductive SettingAttribute where
  | equalizer
  | repeat
  | shuffle
  | scan
  deriving DecidableEq, Repr

def SettingAttribute.id : SettingAttribute → UInt8
  | equalizer => 0x01
  | «repeat» => 0x02
  | shuffle => 0x03
  | scan => 0x04

def SettingAttribute.fromId (id : UInt8) : Option SettingAttribute :=
  if id = 0x01 then some equalizer
  else if id = 0x02 then some .repeat
  else if id = 0x03 then some shuffle
  else if id = 0x04 then some scan
  else none

inductive RepeatSetting where
  | off
  | singleTrack
  | allTracks
  | group
  deriving DecidableEq, Repr

def RepeatSetting.fromId (id : UInt8) : Option RepeatSetting :=
  if id = 0x01 then some off
  else if id = 0x02 then some singleTrack
  else if id = 0x03 then some allTracks
  else if id = 0x04 then some group
  else none

inductive ShuffleSetting where
  | off
  | allTracks
  | group
  deriving DecidableEq, Repr

def ShuffleSetting.fromId (id : UInt8) : Option ShuffleSetting :=
  if id = 0x01 then some off
  else if id = 0x02 then some allTracks
  else if id = 0x03 then some group
  else none

inductive ScanSetting where
  | off
  | allTracks
  | group
  deriving DecidableEq, Repr

def ScanSetting.fromId (id : UInt8) : Option ScanSetting :=
  if id = 0x01 then some off
  else if id = 0x02 then some allTracks
  else if id = 0x03 then some group
  else none

inductive SettingValue where
  | equalizer (on : Bool)
  | repeat (value : RepeatSetting)
  | shuffle (value : ShuffleSetting)
  | scan (value : ScanSetting)
  deriving DecidableEq, Repr

namespace SettingValue

def setting : SettingValue → SettingAttribute
  | equalizer _ => .equalizer
  | «repeat» _ => .repeat
  | shuffle _ => .shuffle
  | scan _ => .scan

/-- No value of a setting that is not ours, and none that its setting does not
have. -/
def fromIds (setting value : UInt8) : Option SettingValue :=
  match SettingAttribute.fromId setting with
  | some .equalizer =>
    if value = 0x01 then some (equalizer false)
    else if value = 0x02 then some (equalizer true)
    else none
  | some .repeat => (RepeatSetting.fromId value).map SettingValue.repeat
  | some .shuffle => (ShuffleSetting.fromId value).map SettingValue.shuffle
  | some .scan => (ScanSetting.fromId value).map SettingValue.scan
  | none => none

end SettingValue

structure SettingAttributes where
  known : List SettingAttribute := []
  unknown : Bytes := []
  deriving DecidableEq, Repr

structure PlayerSettings where
  attributes : SettingAttributes := {}
  repeatValues : List RepeatSetting := []
  shuffleValues : List ShuffleSetting := []
  deriving DecidableEq, Repr

namespace PlayerSettings

def recordValue (settings : PlayerSettings) : SettingValue → PlayerSettings
  | .repeat v =>
    if v ∈ settings.repeatValues then settings
    else { settings with repeatValues := settings.repeatValues ++ [v] }
  | .shuffle v =>
    if v ∈ settings.shuffleValues then settings
    else { settings with shuffleValues := settings.shuffleValues ++ [v] }
  | .equalizer _ | .scan _ => settings

def recordValues (settings : PlayerSettings) (values : List SettingValue) : PlayerSettings :=
  values.foldl recordValue settings

def values (settings : PlayerSettings) : List SettingValue :=
  settings.repeatValues.map SettingValue.repeat ++
    settings.shuffleValues.map SettingValue.shuffle

/-- The setting to ask about: the first of the two that is listed and has no
values. -/
def next (settings : PlayerSettings) : Option SettingAttribute :=
  ([(.repeat, settings.repeatValues.isEmpty), (.shuffle, settings.shuffleValues.isEmpty)].find?
    fun asked => asked.2 && asked.1 ∈ settings.attributes.known).map Prod.fst

end PlayerSettings

/-! ## Questions and answers -/

def listSettingAttributes : AvcFrame := vendorCommand .status 0x11 []

def listSettingValues (setting : SettingAttribute) : AvcFrame :=
  vendorCommand .status 0x12 [setting.id]

def getCurrentSettings (attributes : List SettingAttribute) : AvcFrame :=
  vendorCommand .status 0x13
    (UInt8.ofNat (min attributes.length 255) :: attributes.map SettingAttribute.id)

def registerNotification (event : UInt8) (seconds : ℕ) : AvcFrame :=
  vendorCommand .notify 0x31 (event :: beBytes 4 seconds)

def countedIds (what : String) (params : Bytes) : Except AudioError Bytes :=
  match params with
  | [] => .error (.truncated (what ++ " count") 1 0)
  | count :: rest =>
    if rest.length < count.toNat then
      .error (.truncated (what ++ " ids") (1 + count.toNat) params.length)
    else .ok (rest.take count.toNat)

def SettingAttributes.add (attributes : SettingAttributes) (id : UInt8) : SettingAttributes :=
  match SettingAttribute.fromId id with
  | some setting =>
    if setting ∈ attributes.known then attributes
    else { attributes with known := attributes.known ++ [setting] }
  | none => { attributes with unknown := attributes.unknown ++ [id] }

def parseSettingAttributes (params : Bytes) : Except AudioError SettingAttributes :=
  (countedIds "player setting attribute" params).map fun ids =>
    ids.foldl SettingAttributes.add {}

def parseSettingValues (setting : SettingAttribute) (params : Bytes) :
    Except AudioError (List SettingValue) :=
  (countedIds "player setting value" params).map fun ids =>
    ids.filterMap (SettingValue.fromIds setting.id)

/-- How far the interrogation has got. -/
inductive SettingsQuery where
  | idle
  | attributes
  | values (setting : SettingAttribute)
  | settled
  | unsupported
  deriving DecidableEq, Repr

def SettingsQuery.isOver : SettingsQuery → Bool
  | settled | unsupported => true
  | idle | attributes | values _ => false

/-- What a link keeps for the settings of its player. -/
structure SettingsLink where
  settings : PlayerSettings := {}
  query : SettingsQuery := .idle
  transaction : UInt8 := 0
  deriving DecidableEq

namespace SettingsLink

def label (link : SettingsLink) (frame : AvcFrame) : SettingsLink × (UInt8 × AvcFrame) :=
  ({ link with transaction := (nextTransaction link.transaction).2 },
    ((nextTransaction link.transaction).1, frame))

def opened (link : SettingsLink) : SettingsLink × List (UInt8 × AvcFrame) :=
  let asked := { link with query := .attributes }.label listSettingAttributes
  (asked.1, [asked.2])

def settingChanged : UInt8 := 0x08

/-- Ask the next question.  After the last one the current values are read, and
we subscribe to their changes. -/
def advanceSettingsQuery (link : SettingsLink) : SettingsLink × List (UInt8 × AvcFrame) :=
  match link.settings.next with
  | some setting =>
    let asked := { link with query := .values setting }.label (listSettingValues setting)
    (asked.1, [asked.2])
  | none =>
    let link := { link with query := .settled }
    if link.settings.attributes.known = [] then (link, [])
    else
      let current := link.label (getCurrentSettings link.settings.attributes.known)
      let changes := current.1.label (registerNotification settingChanged 0)
      (changes.1, [current.2, changes.2])

def onSettingAttributes (link : SettingsLink) (ctype : Ctype) (params : Bytes) :
    SettingsLink × List (UInt8 × AvcFrame) :=
  if ctype.isFailure then ({ link with query := .unsupported }, [])
  else
    match parseSettingAttributes params with
    | .ok attributes =>
      advanceSettingsQuery { link with settings := { link.settings with attributes } }
    | .error _ => (link, [])

/-- A response to a listing of values: outside of a question it is dropped. -/
def onSettingValues (link : SettingsLink) (ctype : Ctype) (params : Bytes) :
    SettingsLink × List (UInt8 × AvcFrame) :=
  match link.query with
  | .values setting =>
    let settings :=
      if ctype.isFailure then link.settings
      else
        match parseSettingValues setting params with
        | .ok values => link.settings.recordValues values
        | .error _ => link.settings
    advanceSettingsQuery { link with settings }
  | .idle | .attributes | .settled | .unsupported => (link, [])

end SettingsLink

end Castaway.Bluetooth
