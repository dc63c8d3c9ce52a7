import SearchRelay.Page.Markup

namespace SearchRelay.Page

def template : List Piece :=
  [.text "<!DOCTYPE html>\n",
    .text "<html lang=\"en\">\n",
    .text "<head>\n",
    .text "<meta charset=\"utf-8\">\n",
    .text "<title>",
    .value .title,
    .text "</title>\n",
    .text "<style>\n",
    .text "  body \x7b font-family: monospace; background: #111; color: #ddd; margin: 2em; \x7d\n",
    .text "  h1 \x7b color: #7ec699; \x7d\n",
    .text "  #state \x7b font-weight: bold; \x7d\n",
    .text "  #log \x7b border: 1px solid #333; padding: 0.5em; height: 20em; overflow-y: auto; \x7d\n",
    .text "  .event \x7b color: #e6c07b; \x7d\n",
    .text "</style>\n",
    .text "</head>\n",
    .text "<body>\n",
    .text "<h1>",
    .value .title,
    .text "</h1>\n",
    .text "<p>Controller: <span id=\"controller\">",
    .value .controller,
    .text "</span></p>\n",
    .text "<p>Channel: <span id=\"channel\">disconnected</span> | ",
    .text "Client: <span id=\"client\">-</span></p>\n",
    .text "<p>State: <span id=\"state\">unknown</span> | ",
    .text "Files: <span id=\"files\">0</span> | Scans: <span id=\"scans\">0</span></p>\n",
    .text "<p>Progress: <span id=\"progress\">-</span></p>\n",
    .text "<div id=\"log\"></div>\n",
    .text "<script>\n",
    .text "(function () \x7b\n",
    .text "  const path = ",
    .script .path,
    .text ";\n",
    .text "  const scheme = location.protocol === \"https:\" ? \"wss://\" : \"ws://\";\n",
    .text "  const log = document.getElementById(\"log\");\n",
    .text "  const set = (id, value) => \x7b document.getElementById(id).textContent = value; \x7d;\n",
    .text "\n",
    .text "  function append(event, data) \x7b\n",
    .text "    const line = document.createElement(\"div\");\n",
    .text "    const name = document.createElement(\"span\");\n",
    .text "    name.className = \"event\";\n",
    .text "    name.textContent = event;\n",
    .text "    line.appendChild(name);\n",
    .text "    line.appendChild(document.createTextNode(\" \" + JSON.stringify(data)));\n",
    .text "    log.appendChild(line);\n",
    .text "    log.scrollTop = log.scrollHeight;\n",
    .text "  \x7d\n",
    .text "\n",
    .text "  const handlers = \x7b\n",
    .text "    connected: (data) => set(\"client\", data.client_id),\n",
    .text "    status: (data) => \x7b\n",
    .text "      set(\"state\", data.state);\n",
    .text "      set(\"files\", data.files);\n",
    .text "      set(\"scans\", data.scans);\n",
    .text "    \x7d,\n",
    .text "    progress: (data) => set(\"progress\", data.scanned + \" / \" + data.total),\n",
    .text "    index_updated: (data) => set(\"files\", data.files),\n",
    .text "  \x7d;\n",
    .text "\n",
    .text "  const socket = new WebSocket(scheme + location.host + path);\n",
    .text "  socket.onopen = () => set(\"channel\", \"open\");\n",
    .text "  socket.onclose = () => set(\"channel\", \"closed\");\n",
    .text "  socket.onmessage = (frame) => \x7b\n",
    .text "    let msg;\n",
    .text "    try \x7b\n",
    .text "      msg = JSON.parse(frame.data);\n",
    .text "    \x7d catch (_) \x7b\n",
    .text "      return;\n",
    .text "    \x7d\n",
    .text "    const handler = handlers[msg.event];\n",
    .text "    if (handler) \x7b\n",
    .text "      handler(msg.data);\n",
    .text "    \x7d\n",
    .text "    append(msg.event, msg.data);\n",
    .text "  \x7d;\n",
    .text "\x7d)();\n",
    .text "</script>\n",
    .text "</body>\n",
    .text "</html>"]

end SearchRelay.Page
