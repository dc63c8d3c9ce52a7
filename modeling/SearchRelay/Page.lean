import SearchRelay.Page.Template

namespace SearchRelay.Page

def title : String := "Cedar"

def render (path controller : String) : Except Error String :=
  renderAll [(.title, title), (.path, path), (.controller, controller)] template

end SearchRelay.Page
