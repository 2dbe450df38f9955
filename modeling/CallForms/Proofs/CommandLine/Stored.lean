import CallForms.CommandLine.Command
import CallForms.Disk.Observed
import CallForms.Proofs.Compilation.Headroom
import CallForms.Proofs.Compilation.Respacing
import CallForms.Proofs.Text.Octets

namespace CallForms

namespace Source

end Source

namespace CommandLine

variable {disk : Disk} {file text : String}

def well : Disk :=
  .observed [(⟨"", ["deep"]⟩, .ok (.file (Text.Utf8.encode (Source.openCalls 5000).text)))]

end CommandLine

end CallForms
