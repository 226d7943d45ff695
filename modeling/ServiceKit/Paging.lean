import ServiceKit.Json

namespace ServiceKit

structure Page where
  items : List Json
  page : Nat
  perPage : Nat
  total : Nat

namespace Page

-- No pages when a page holds nothing.
def totalPages (p : Page) : Nat := if p.perPage = 0 then 0 else (p.total + p.perPage - 1) / p.perPage

def toJson (p : Page) : Json :=
  .object [("items",.array p.items),("page",.nat p.page),("per_page",.nat p.perPage),("total",.nat p.total)]

end Page
end ServiceKit
