import ClientGen.Document.Basic
import ClientGen.Text.Replace

/-! The address of a server. -/
namespace ClientGen.Document

/-- Replaces `{name}` for each variable in turn, so a default may bring in a later variable. -/
def Server.resolvedUrl (server : Server) : String :=
  String.ofList <| server.defaults.foldl
    (fun url entry => Text.replace (['\x7b'] ++ entry.1.toList ++ ['\x7d']) entry.2.toList url)
    server.url.toList

end ClientGen.Document
