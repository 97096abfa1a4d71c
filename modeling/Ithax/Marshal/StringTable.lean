import Ithax.Marshal.Value

/-!
# The marshal string table

`network/marshal/string_table.cpp`: 195 well-known strings that travel as a
one-byte index. The lookup compares hashes before texts; the hash is the djb2
hash in 32-bit arithmetic.
-/

namespace Ithax.Marshal

open Ithax.Lib

/-- The bytes of an ASCII literal of the source. -/
def ascii (s : String) : Bytes :=
  s.toList.map fun c => UInt8.ofNat c.toNat

/-- The index that names no string. -/
def STRING_TABLE_ERROR : Nat := 0
/-- The number of entries. -/
def STRING_TABLE_SIZE : Nat := 195

/-- The entries of the table, in its order. -/
def stringTableNames : List String :=
  ["*corpid", "*locationid", "age", "Asteroid", "authentication", "ballID", "beyonce",
    "bloodlineID", "capacity", "categoryID", "character", "characterID",
    "characterName", "characterType", "charID", "chatx", "clientID", "config",
    "contraband", "corporationDateTime", "corporationID", "createDateTime",
    "customInfo", "description", "divisionID", "DoDestinyUpdate", "dogmaIM",
    "EVE System", "flag", "foo.SlimItem", "gangID", "Gemini", "gender", "graphicID",
    "groupID", "header", "idName", "invbroker", "itemID", "items", "jumps", "line",
    "lines", "locationID", "locationName", "macho.CallReq", "macho.CallRsp",
    "macho.MachoAddress", "macho.Notification", "macho.SessionChangeNotification",
    "modules", "name", "objectCaching", "objectCaching.CachedObject", "OnChatJoin",
    "OnChatLeave", "OnChatSpeak", "OnGodmaShipEffect", "OnItemChange",
    "OnModuleAttributeChange", "OnMultiEvent", "orbitID", "ownerID", "ownerName",
    "quantity", "raceID", "RowClass", "securityStatus", "Sentry Gun", "sessionchange",
    "singleton", "skillEffect", "squadronID", "typeID", "used", "userID",
    "util.CachedObject", "util.IndexRowset", "util.Moniker", "util.Row", "util.Rowset",
    "*multicastID", "AddBalls", "AttackHit3", "AttackHit3R", "AttackHit4R",
    "DoDestinyUpdates", "GetLocationsEx", "InvalidateCachedObjects", "JoinChannel",
    "LSC", "LaunchMissile", "LeaveChannel", "OID+", "OID-", "OnAggressionChange",
    "OnCharGangChange", "OnCharNoLongerInStation", "OnCharNowInStation",
    "OnDamageMessage", "OnDamageStateChange", "OnEffectHit", "OnGangDamageStateChange",
    "OnLSC", "OnSpecialFX", "OnTarget", "RemoveBalls", "SendMessage", "SetMaxSpeed",
    "SetSpeedFraction", "TerminalExplosion", "address", "alert", "allianceID",
    "allianceid", "bid", "bookmark", "bounty", "channel", "charid", "constellationid",
    "corpID", "corpid", "corprole", "damage", "duration", "effects.Laser", "gangid",
    "gangrole", "hqID", "issued", "jit", "languageID", "locationid", "machoVersion",
    "marketProxy", "minVolume", "orderID", "price", "range", "regionID", "regionid",
    "role", "rolesAtAll", "rolesAtBase", "rolesAtHQ", "rolesAtOther", "shipid", "sn",
    "solarSystemID", "solarsystemid", "solarsystemid2", "source", "splash", "stationID",
    "stationid", "target", "userType", "userid", "volEntered", "volRemaining", "weapon",
    "agent.missionTemplatizedContent_BasicKillMission",
    "agent.missionTemplatizedContent_ResearchKillMission",
    "agent.missionTemplatizedContent_StorylineKillMission",
    "agent.missionTemplatizedContent_GenericStorylineKillMission",
    "agent.missionTemplatizedContent_BasicCourierMission",
    "agent.missionTemplatizedContent_ResearchCourierMission",
    "agent.missionTemplatizedContent_StorylineCourierMission",
    "agent.missionTemplatizedContent_GenericStorylineCourierMission",
    "agent.missionTemplatizedContent_BasicTradeMission",
    "agent.missionTemplatizedContent_ResearchTradeMission",
    "agent.missionTemplatizedContent_StorylineTradeMission",
    "agent.missionTemplatizedContent_GenericStorylineTradeMission",
    "agent.offerTemplatizedContent_BasicExchangeOffer",
    "agent.offerTemplatizedContent_BasicExchangeOffer_ContrabandDemand",
    "agent.offerTemplatizedContent_BasicExchangeOffer_Crafting", "agent.LoyaltyPoints",
    "agent.ResearchPoints", "agent.Credits", "agent.Item", "agent.Entity",
    "agent.Objective", "agent.FetchObjective", "agent.EncounterObjective",
    "agent.DungeonObjective", "agent.TransportObjective", "agent.Reward",
    "agent.TimeBonusReward", "agent.MissionReferral", "agent.Location",
    "agent.StandardMissionDetails", "agent.OfferDetails",
    "agent.ResearchMissionDetails", "agent.StorylineMissionDetails"]

/-- `kStringTable`, as bytes. -/
def kStringTable : List Bytes := stringTableNames.map ascii

/-- The table has the size the header says. -/
theorem length_kStringTable : kStringTable.length = STRING_TABLE_SIZE := by
  rw [kStringTable, List.length_map]
  rfl

/-- `Djb2Hash`. -/
def djb2Hash (text : Bytes) : UInt32 :=
  text.foldl (fun hash c => ((hash <<< 5) + hash) + c.toUInt32) 5381

/-- Index of the first entry with the same hash and text, counted from 1. -/
def lookupStringIndex (text : Bytes) : Option UInt8 :=
  let target := djb2Hash text
  (kStringTable.findIdx? fun entry =>
    djb2Hash entry == target && text == entry).map fun i => UInt8.ofNat (i + 1)

/-- `LookupString`: nothing for 0 and above the size. -/
def lookupString (index : UInt8) : Option Bytes :=
  if h : index.toNat = STRING_TABLE_ERROR ∨ index.toNat > STRING_TABLE_SIZE then
    none
  else
    have hLt : index.toNat - 1 < kStringTable.length := by
      rw [length_kStringTable]
      simp only [STRING_TABLE_ERROR, STRING_TABLE_SIZE] at h ⊢
      omega
    some (kStringTable.get ⟨index.toNat - 1, hLt⟩)

/-- An index the encoder picks names the string it was picked for. -/
theorem lookupString_of_lookupStringIndex {text : Bytes} {i : UInt8}
    (h : lookupStringIndex text = some i) : lookupString i = some text := by
  simp only [lookupStringIndex, Option.map_eq_some_iff] at h
  obtain ⟨j, hj, rfl⟩ := h
  obtain ⟨hLt, hEq, -⟩ := List.findIdx?_eq_some_iff_getElem.mp hj
  simp only [Bool.and_eq_true, beq_iff_eq] at hEq
  have hSize : j < 195 := by
    rw [length_kStringTable] at hLt
    exact hLt
  have hNat : (UInt8.ofNat (j + 1)).toNat = j + 1 := by
    simp only [UInt8.toNat_ofNat']
    omega
  rw [lookupString, dif_neg]
  · simp only [hNat, Nat.add_sub_cancel, List.get_eq_getElem, Option.some.injEq]
    exact hEq.2.symm
  · simp only [hNat, STRING_TABLE_ERROR, STRING_TABLE_SIZE]
    omega

end Ithax.Marshal
