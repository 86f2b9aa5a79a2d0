import Folio.Options
import Folio.Rendering
import Folio.Target

/-!
# Folio.Document

The page of a single document.

* `processDocument`: makes the page and writes it. A page is never written over its own document.
-/

namespace Folio

def DocumentOptions.outputFor (options : DocumentOptions) (input : Path) : Path :=
  defaultOutput options.output input options.format

/-- Makes the page of a document and writes it; the place of the page. -/
def processDocument (renderer : Renderer) (kind : DocumentKind) (input : Path) (options : DocumentOptions) :
    Action Path := do
  let output := options.outputFor input
  if ← Action.ask fun fs => fs.sameFile output input then
    Action.fail (.document input.display "output would overwrite the input")
  else
    let content ← Content.produce kind options.settings input
    renderToFile renderer options.template options.layoutRoots content output
    return output

end Folio
