import NfcForumTags.SectorTracking
import NfcForumTags.UncachedReader
import NfcForumTags.NdefOffset
import NfcForumTags.NdefTarget
import NfcForumTags.DataStream
import NfcForumTags.TwoPass
import NfcForumTags.InterruptedWrite
import NfcForumTags.CrashSafety
import NfcForumTags.Framing
import NfcForumTags.TlvRoundTrip
import NfcForumTags.DocumentedGrammar
import NfcForumTags.AddressMap
import NfcForumTags.BlindCommands
import NfcForumTags.TransientErrors
import NfcForumTags.ReadBack
import NfcForumTags.CheckedWriting
import NfcForumTags.SectorCount
import NfcForumTags.NdefStore
import NfcForumTags.Session
import NfcForumTags.WriteHistory
import NfcForumTags.VendorCommands
import NfcForumTags.ReadEconomy
import NfcForumTags.SelectedSectors
import NfcForumTags.FirstSector
import NfcForumTags.ProtectedTags
import NfcForumTags.BuildRuns
import NfcForumTags.NormalForm
import NfcForumTags.WireFormats
