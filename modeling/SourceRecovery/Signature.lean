import SourceRecovery.Bytes

/-!
The signatures by which debug information and images are told apart.
-/
namespace SourceRecovery.Signature

def startsWith (data signature : Bytes) : Bool := data.take signature.length == signature

def ofText (text : String) : Bytes := text.toList.map fun c => UInt8.ofNat c.toNat

def portablePdb : Bytes := ofText "BSJB"

def windowsPdb : Bytes := ofText "Microsoft C/C++ MSF 7.00\r\n\x1aDS\x00\x00\x00"

def dosHeader : Bytes := ofText "MZ"

def peHeader : Bytes := ofText "PE\x00\x00"

def embeddedPdb : Bytes := ofText "MPDB"

def isPortablePdb (data : Bytes) : Bool := startsWith data portablePdb

def isWindowsPdb (data : Bytes) : Bool := startsWith data windowsPdb

def isImage (data : Bytes) : Bool := startsWith data dosHeader

end SourceRecovery.Signature
